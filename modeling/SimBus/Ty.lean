/-!
The types of bus values. A type is written as its *signature*: one letter for
a basic type or a variant, `a` before the element type of an array, brackets
around the members of a tuple, and `a{` key value `}` for a dictionary.
-/

namespace SimBus

inductive IntKind where
  | byte | int16 | uint16 | int32 | uint32 | int64 | uint64
  deriving DecidableEq, Repr

namespace IntKind

def letter : IntKind → Char
  | byte => 'y'
  | int16 => 'n'
  | uint16 => 'q'
  | int32 => 'i'
  | uint32 => 'u'
  | int64 => 'x'
  | uint64 => 't'

def lo : IntKind → Int
  | int16 => -32768
  | int32 => -2147483648
  | int64 => -9223372036854775808
  | byte | uint16 | uint32 | uint64 => 0

def hi : IntKind → Int
  | byte => 255
  | int16 => 32767
  | uint16 => 65535
  | int32 => 2147483647
  | uint32 => 4294967295
  | int64 => 9223372036854775807
  | uint64 => 18446744073709551615

/-- A number that the kind can hold. -/
structure Number (kind : IntKind) where
  val : Int
  lo_le : kind.lo ≤ val
  le_hi : val ≤ kind.hi
  deriving DecidableEq

/-- The number as a value of the kind, unless it lies outside its range. -/
def number? (kind : IntKind) (z : Int) : Option kind.Number :=
  if h : kind.lo ≤ z ∧ z ≤ kind.hi then some ⟨z, h.1, h.2⟩ else none

end IntKind

inductive Ty where
  | bool
  | int (kind : IntKind)
  | double
  | string
  | objectPath
  | variant
  | array (element : Ty)
  | tuple (members : List Ty)
  | dict (key value : Ty)
  deriving Repr, Inhabited

namespace Ty

/-- The empty tuple, the type of an argument list without arguments. -/
def unit : Ty := .tuple []

/-- Basic types are the ones without parts. Only they can be dictionary keys. -/
def isBasic : Ty → Bool
  | bool | int _ | double | string | objectPath => true
  | variant | array _ | tuple _ | dict _ _ => false

def isInteger : Ty → Bool
  | int _ => true
  | _ => false

def isNumeric : Ty → Bool
  | int _ | double => true
  | _ => false

mutual
def letters : Ty → List Char
  | bool => ['b']
  | int kind => [kind.letter]
  | double => ['d']
  | string => ['s']
  | objectPath => ['o']
  | variant => ['v']
  | array element => 'a' :: letters element
  | tuple members => '(' :: (lettersOfList members ++ [')'])
  | dict key value => 'a' :: '{' :: (letters key ++ (letters value ++ ['}']))

def lettersOfList : List Ty → List Char
  | [] => []
  | ty :: rest => letters ty ++ lettersOfList rest
end

def signature (ty : Ty) : String := String.ofList ty.letters

mutual
def decEq : (a b : Ty) → Decidable (a = b)
  | bool, bool | double, double | string, string | objectPath, objectPath
  | variant, variant => isTrue rfl
  | int a, int b =>
      if h : a = b then isTrue (h ▸ rfl) else isFalse fun e => h (Ty.int.inj e)
  | array a, array b =>
      match decEq a b with
      | isTrue h => isTrue (h ▸ rfl)
      | isFalse h => isFalse fun e => h (Ty.array.inj e)
  | tuple as, tuple bs =>
      match decEqList as bs with
      | isTrue h => isTrue (h ▸ rfl)
      | isFalse h => isFalse fun e => h (Ty.tuple.inj e)
  | dict a b, dict c d =>
      match decEq a c, decEq b d with
      | isTrue h, isTrue g => isTrue (h ▸ g ▸ rfl)
      | isFalse h, _ => isFalse fun e => h (Ty.dict.inj e).1
      | _, isFalse h => isFalse fun e => h (Ty.dict.inj e).2
  | bool, int _ | bool, double | bool, string | bool, objectPath | bool, variant
  | bool, array _ | bool, tuple _ | bool, dict _ _ => isFalse nofun
  | int _, bool | int _, double | int _, string | int _, objectPath | int _, variant
  | int _, array _ | int _, tuple _ | int _, dict _ _ => isFalse nofun
  | double, bool | double, int _ | double, string | double, objectPath | double, variant
  | double, array _ | double, tuple _ | double, dict _ _ => isFalse nofun
  | string, bool | string, int _ | string, double | string, objectPath | string, variant
  | string, array _ | string, tuple _ | string, dict _ _ => isFalse nofun
  | objectPath, bool | objectPath, int _ | objectPath, double | objectPath, string
  | objectPath, variant | objectPath, array _ | objectPath, tuple _
  | objectPath, dict _ _ => isFalse nofun
  | variant, bool | variant, int _ | variant, double | variant, string
  | variant, objectPath | variant, array _ | variant, tuple _
  | variant, dict _ _ => isFalse nofun
  | array _, bool | array _, int _ | array _, double | array _, string
  | array _, objectPath | array _, variant | array _, tuple _
  | array _, dict _ _ => isFalse nofun
  | tuple _, bool | tuple _, int _ | tuple _, double | tuple _, string
  | tuple _, objectPath | tuple _, variant | tuple _, array _
  | tuple _, dict _ _ => isFalse nofun
  | dict _ _, bool | dict _ _, int _ | dict _ _, double | dict _ _, string
  | dict _ _, objectPath | dict _ _, variant | dict _ _, array _
  | dict _ _, tuple _ => isFalse nofun

def decEqList : (as bs : List Ty) → Decidable (as = bs)
  | [], [] => isTrue rfl
  | [], _ :: _ => isFalse nofun
  | _ :: _, [] => isFalse nofun
  | a :: as, b :: bs =>
      match decEq a b, decEqList as bs with
      | isTrue h, isTrue g => isTrue (h ▸ g ▸ rfl)
      | isFalse h, _ => isFalse fun e => h (List.cons.inj e).1
      | _, isFalse h => isFalse fun e => h (List.cons.inj e).2
end

instance : DecidableEq Ty := decEq

end Ty

end SimBus
