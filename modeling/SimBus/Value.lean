import SimBus.Ty
import SimBus.ObjectPath
import SimBus.Json
/-!
Values, tagged with enough of their type to recover it. A value is only data:
arrays may hold members of another type than they announce and object paths
may be malformed, until one of the checked constructors is asked to build them.
-/

namespace SimBus

inductive Value where
  | bool (flag : Bool)
  | int (kind : IntKind) (number : kind.Number)
  | double (x : Float)
  | string (text : String)
  | objectPath (text : String)
  /-- A value boxed together with its own type. -/
  | variant (inner : Value)
  /-- The element type is kept so that an empty array has one. -/
  | array (element : Ty) (items : List Value)
  | tuple (items : List Value)
  | dict (key value : Ty) (entries : List (Value × Value))

namespace Value

def unit : Value := .tuple []

mutual
def ty : Value → Ty
  | bool _ => .bool
  | int kind _ => .int kind
  | double _ => .double
  | string _ => .string
  | objectPath _ => .objectPath
  | variant _ => .variant
  | array element _ => .array element
  | tuple items => .tuple (tyOfList items)
  | dict key value _ => .dict key value

def tyOfList : List Value → List Ty
  | [] => []
  | item :: rest => ty item :: tyOfList rest
end

mutual
/-- Whether two values are the same datum. Doubles are compared as numbers, so
a NaN differs from itself; the order of dictionary entries does not matter. -/
def beq : Value → Value → Bool
  | bool a, bool b => a == b
  | int j a, int k b => j == k && a.val == b.val
  | double a, double b => a == b
  | string a, string b => a == b
  | objectPath a, objectPath b => a == b
  | variant a, variant b => beq a b
  | array e as, array f bs => e == f && beqList as bs
  | tuple as, tuple bs => beqList as bs
  | dict k v es, dict l w fs => k == l && v == w && es.length == fs.length && within es fs
  | _, _ => false

def beqList : List Value → List Value → Bool
  | [], [] => true
  | a :: as, b :: bs => beq a b && beqList as bs
  | _, _ => false

/-- Whether each of the entries has an equal one among the others. -/
def within : List (Value × Value) → List (Value × Value) → Bool
  | [], _ => true
  | (key, value) :: rest, others =>
      others.any (fun other => beq key other.1 && beq value other.2) && within rest others
end

instance : BEq Value := ⟨beq⟩

def integer? : Value → Option Int
  | int _ number => some number.val
  | _ => none

def bool? : Value → Option Bool
  | bool flag => some flag
  | _ => none

def text? : Value → Option String
  | string text | objectPath text => some text
  | _ => none

def members? : Value → Option (List Value)
  | tuple items => some items
  | _ => none

def entry? (wanted : Value) : List (Value × Value) → Option Value
  | [] => none
  | (key, value) :: rest => if key == wanted then some value else entry? wanted rest

def get? (value wanted : Value) : Option Value :=
  match value with
  | dict _ _ entries => entry? wanted entries
  | _ => none

end Value

inductive ValueError where
  | mismatch (expected found : Ty)
  | outOfRange (ty : Ty) (value : Int)
  | invalidObjectPath (path : String)
  | unreadable (expected : Ty) (found : Json)

def ValueError.message : ValueError → String
  | mismatch expected found =>
      "expected a value of type '" ++ expected.signature ++ "', found '" ++ found.signature ++ "'"
  | outOfRange ty value =>
      "integer " ++ toString value ++ " is out of range for type '" ++ ty.signature ++ "'"
  | invalidObjectPath path => "'" ++ path ++ "' is not a valid object path"
  | unreadable expected found =>
      "cannot read JSON " ++ found.summary ++ " as type '" ++ expected.signature ++ "'"

namespace Value

def expectTy (value : Value) (expected : Ty) : Except ValueError Unit :=
  if value.ty = expected then .ok () else .error (.mismatch expected value.ty)

def expectAll (expected : Ty) : List Value → Except ValueError Unit
  | [] => .ok ()
  | item :: rest => do
      item.expectTy expected
      expectAll expected rest

def mkArray (element : Ty) (items : List Value) : Except ValueError Value := do
  expectAll element items
  pure (.array element items)

/-- Puts an entry under its key: in the place of the entry with an equal key,
or else at the end. -/
def putEntry (key value : Value) : List (Value × Value) → List (Value × Value)
  | [] => [(key, value)]
  | (other, kept) :: rest =>
      if other == key then (other, value) :: rest
      else (other, kept) :: putEntry key value rest

/-- Puts one pair after the other, each after a look at its types. -/
def putAll (keyTy valueTy : Ty) :
    (pairs entries : List (Value × Value)) → Except ValueError (List (Value × Value))
  | [], entries => .ok entries
  | (key, value) :: rest, entries => do
      key.expectTy keyTy
      value.expectTy valueTy
      putAll keyTy valueTy rest (putEntry key value entries)

/-- A dictionary of typed entries with distinct keys; of several pairs with
equal keys the last gives the value. -/
def mkDict (key value : Ty) (pairs : List (Value × Value)) : Except ValueError Value := do
  let entries ← putAll key value pairs []
  pure (.dict key value entries)

def mkObjectPath (path : String) : Except ValueError Value :=
  if ObjectPath.valid path then .ok (.objectPath path) else .error (.invalidObjectPath path)

def ofInt (ty : Ty) (z : Int) : Except ValueError Value :=
  match ty with
  | .int kind =>
      match kind.number? z with
      | some number => .ok (.int kind number)
      | none => .error (.outOfRange ty z)
  | .double => .ok (.double (Float.ofInt z))
  | _ => .error (.mismatch ty (.int .int64))

end Value

end SimBus
