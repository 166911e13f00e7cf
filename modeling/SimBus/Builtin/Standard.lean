import SimBus.Builtin
import SimBus.Text.Digits
/-!
The standard functions: on arrays, on dictionaries, on strings, and one that
makes up fresh object paths.
-/

namespace SimBus.Builtin

/-- What a procedure answers to an argument of another shape than its rule
admits. A call consults the rule first, so this never shows. -/
def wrongShape (members : Nat) : Eval Value := throw (.arity "built-in argument" members 0)

/-- The position that an index value denotes, if it is below `bound`. -/
def position (index : Value) (bound length : Nat) : Eval Nat :=
  let z := index.integer?.getD (-1)
  if 0 ≤ z ∧ z < bound then pure z.toNat else throw (.indexOutOfRange z length)

/-- After a container, its element; after a dictionary, its key and its value. -/
def containerHint : List Ty → Nat → Option Ty
  | .array element :: _, 1 => some element
  | .dict key _ :: _, 1 => some key
  | .dict _ value :: _, 2 => some value
  | _, _ => none

def indexedHint : List Ty → Nat → Option Ty
  | .array _ :: _, 1 => some (.int .uint32)
  | .array element :: _, 2 => some element
  | _, _ => none

def noHint : List Ty → Nat → Option Ty := fun _ _ => none

def keys : Builtin where
  name := "keys"
  parameter := "a\x7bKV\x7d"
  rule
    | .dict key _ => some (.array key)
    | _ => none
  hint := noHint
  procedure
    | .dict key _ entries => pure (.array key (entries.map Prod.fst))
    | _ => wrongShape 1

/-- The dictionary of two arrays, one with the keys and one with the values. -/
def pairKeys : Builtin where
  name := "pairKeys"
  parameter := "(aK, aV) with K basic"
  rule
    | .tuple [.array key, .array value] => if key.isBasic then some (.dict key value) else none
    | _ => none
  hint := noHint
  procedure
    | .tuple [.array key keys, .array value values] =>
        if keys.length = values.length then
          Eval.ofValue (Value.mkDict key value (keys.zip values))
        else throw (.arity "pairKeys" keys.length values.length)
    | _ => wrongShape 2

def wordText (w : UInt64) : String :=
  String.ofList (Digits.padded 16 16 w.toNat)

def trimSlashes (text : String) : String :=
  String.ofList (text.toList.reverse.dropWhile (· == '/')).reverse

/-- A path below the given one that is made up at random, and its last part. -/
def freshObjectPath : Builtin where
  name := "freshObjectPath"
  parameter := "s (a parent object path)"
  rule
    | .string => some (.tuple [.objectPath, .string])
    | _ => none
  hint := noHint
  procedure argument := do
    let id := wordText (← (Draws.randomWord : Draws UInt64))
    let parent := trimSlashes (argument.text?.getD "")
    let path ← Eval.ofValue (Value.mkObjectPath (parent ++ "/_" ++ id))
    pure (.tuple [path, .string id])

def inArray : Builtin where
  name := "inArray"
  parameter := "(aT, T)"
  rule
    | .tuple [.array element, item] => if element = item then some .bool else none
    | _ => none
  hint := containerHint
  procedure
    | .tuple [.array _ items, item] => pure (.bool (items.any (· == item)))
    | _ => wrongShape 2

def arrayGet : Builtin where
  name := "arrayGet"
  parameter := "(aT, integer index)"
  rule
    | .tuple [.array element, .int _] => some element
    | _ => none
  hint := indexedHint
  procedure
    | .tuple [.array _ items, index] => do
        let i ← position index items.length items.length
        match items[i]? with
        | some item => pure item
        | none => throw (.indexOutOfRange i items.length)
    | _ => wrongShape 2

/-- The array with an item put in at the index; one behind the last item will do. -/
def arrayInsert : Builtin where
  name := "arrayInsert"
  parameter := "(aT, integer index, T)"
  rule
    | .tuple [.array element, .int _, item] =>
        if element = item then some (.array element) else none
    | _ => none
  hint := indexedHint
  procedure
    | .tuple [.array element items, index, item] => do
        let i ← position index (items.length + 1) items.length
        pure (.array element (items.take i ++ item :: items.drop i))
    | _ => wrongShape 3

def arrayRemove : Builtin where
  name := "arrayRemove"
  parameter := "(aT, integer index)"
  rule
    | .tuple [.array element, .int _] => some (.array element)
    | _ => none
  hint := indexedHint
  procedure
    | .tuple [.array element items, index] => do
        let i ← position index items.length items.length
        pure (.array element (items.eraseIdx i))
    | _ => wrongShape 2

def dictGet : Builtin where
  name := "dictGet"
  parameter := "(a\x7bKV\x7d, K)"
  rule
    | .tuple [.dict key value, wanted] => if key = wanted then some value else none
    | _ => none
  hint := containerHint
  procedure
    | .tuple [.dict _ _ entries, wanted] =>
        match Value.entry? wanted entries with
        | some value => pure value
        | none => throw (.missingKey wanted)
    | _ => wrongShape 2

def dictSet : Builtin where
  name := "dictSet"
  parameter := "(a\x7bKV\x7d, K, V)"
  rule
    | .tuple [.dict key value, newKey, newValue] =>
        if key = newKey ∧ value = newValue then some (.dict key value) else none
    | _ => none
  hint := containerHint
  procedure
    | .tuple [.dict key value entries, newKey, newValue] =>
        Eval.ofValue (Value.mkDict key value (entries ++ [(newKey, newValue)]))
    | _ => wrongShape 3

def dictRemove : Builtin where
  name := "dictRemove"
  parameter := "(a\x7bKV\x7d, K)"
  rule
    | .tuple [.dict key value, unwanted] => if key = unwanted then some (.dict key value) else none
    | _ => none
  hint := containerHint
  procedure
    | .tuple [.dict key value entries, unwanted] =>
        pure (.dict key value (entries.filter fun entry => !(entry.1 == unwanted)))
    | _ => wrongShape 2

def length : Builtin where
  name := "length"
  parameter := "an array, dictionary or string"
  rule
    | .array _ | .dict _ _ | .string => some (.int .uint32)
    | _ => none
  hint := noHint
  procedure argument :=
    let count := match argument with
      | .array _ items => items.length
      | .dict _ _ entries => entries.length
      | .string text => text.length
      | _ => 0
    match IntKind.uint32.number? count with
    | some number => pure (.int .uint32 number)
    | none => throw (.overflow "length" (.int .uint32))

def stringJoin : Builtin where
  name := "stringJoin"
  parameter := "(as, s)"
  rule
    | .tuple [.array .string, .string] => some .string
    | _ => none
  hint := noHint
  procedure
    | .tuple [.array _ parts, separator] =>
        pure (.string ((separator.text?.getD "").intercalate (parts.filterMap Value.text?)))
    | _ => wrongShape 2

def standard : BuiltinTable :=
  ⟨[keys, pairKeys, freshObjectPath, inArray, arrayGet, arrayInsert, arrayRemove,
    dictGet, dictSet, dictRemove, length, stringJoin]⟩

end SimBus.Builtin
