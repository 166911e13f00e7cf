import SimBus.Ty
/-!
Reading signatures back into types. A dictionary key has to be basic; nothing
may follow a single type, and a list of types is read up to the end of the text.
-/

namespace SimBus

inductive SignatureFault where
  | unexpectedEnd
  | keyNotBasic (key : Ty)
  | unterminatedEntry
  | unterminatedTuple
  | unknownLetter (c : Char)
  | trailing (offset : Nat)
  deriving Repr, DecidableEq

namespace SignatureFault

/-- The first byte of the character's UTF-8 form, as the character with that
number. Signatures are ASCII, so a stray byte is reported on its own. -/
def leadingByte (c : Char) : Char :=
  match (String.singleton c).toUTF8.toList with
  | byte :: _ => Char.ofNat byte.toNat
  | [] => c

def reason : SignatureFault → String
  | unexpectedEnd => "unexpected end of signature"
  | keyNotBasic key => "dictionary key type '" ++ key.signature ++ "' is not basic"
  | unterminatedEntry => "unterminated dictionary entry type"
  | unterminatedTuple => "unterminated tuple type"
  | unknownLetter c => "unknown type code '" ++ String.singleton (leadingByte c) ++ "'"
  | trailing offset => "trailing characters after byte " ++ toString offset

end SignatureFault

structure SignatureError where
  signature : String
  fault : SignatureFault
  deriving Repr, DecidableEq

def SignatureError.message (e : SignatureError) : String :=
  "invalid type signature '" ++ e.signature ++ "': " ++ e.fault.reason

namespace Ty

def ofLetter? : Char → Option Ty
  | 'b' => some bool
  | 'y' => some (int .byte)
  | 'n' => some (int .int16)
  | 'q' => some (int .uint16)
  | 'i' => some (int .int32)
  | 'u' => some (int .uint32)
  | 'x' => some (int .int64)
  | 't' => some (int .uint64)
  | 'd' => some double
  | 's' => some string
  | 'o' => some objectPath
  | 'v' => some variant
  | _ => none

def startsWith (c : Char) : Bool :=
  (ofLetter? c).isSome || c == 'a' || c == '('

mutual
/-- Reads one type off the front of `cs`. Every second step takes a letter, so
twice the number of letters is enough `fuel`. -/
def read : (fuel : Nat) → (cs : List Char) → Except SignatureFault (Ty × List Char)
  | _, [] => .error .unexpectedEnd
  | 0, _ => .error .unexpectedEnd
  | fuel + 1, 'a' :: '{' :: rest => do
      let (key, rest) ← read fuel rest
      if !key.isBasic then throw (.keyNotBasic key)
      let (value, rest) ← read fuel rest
      match rest with
      | '}' :: rest => pure (.dict key value, rest)
      | _ => throw .unterminatedEntry
  | fuel + 1, 'a' :: rest => do
      let (element, rest) ← read fuel rest
      pure (.array element, rest)
  | fuel + 1, '(' :: rest => do
      let (members, rest) ← readMembers fuel rest
      pure (.tuple members, rest)
  | _ + 1, c :: rest =>
      match ofLetter? c with
      | some ty => .ok (ty, rest)
      | none => .error (.unknownLetter c)

def readMembers : (fuel : Nat) → (cs : List Char) → Except SignatureFault (List Ty × List Char)
  | _, [] => .error .unterminatedTuple
  | 0, _ => .error .unterminatedTuple
  | _ + 1, ')' :: rest => .ok ([], rest)
  | fuel + 1, cs => do
      let (member, rest) ← read fuel cs
      let (members, rest) ← readMembers fuel rest
      pure (member :: members, rest)
end

def readFront (cs : List Char) : Except SignatureFault (Ty × List Char) :=
  read (2 * cs.length) cs

/-- Reads types until the text is used up; each takes at least one letter. -/
def readAll : (fuel : Nat) → (cs : List Char) → Except SignatureFault (List Ty)
  | _, [] => .ok []
  | 0, _ => .ok []
  | fuel + 1, cs => do
      let (ty, rest) ← readFront cs
      let types ← readAll fuel rest
      pure (ty :: types)

def parse (signature : String) : Except SignatureError Ty :=
  match readFront signature.toList with
  | .error fault => .error ⟨signature, fault⟩
  | .ok (ty, []) => .ok ty
  | .ok (_, rest) => .error ⟨signature, .trailing (signature.toList.length - rest.length)⟩

def parseList (signature : String) : Except SignatureError (List Ty) :=
  match readAll signature.toList.length signature.toList with
  | .error fault => .error ⟨signature, fault⟩
  | .ok types => .ok types

end Ty

end SimBus
