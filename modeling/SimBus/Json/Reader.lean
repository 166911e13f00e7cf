import SimBus.Json.Number
/-!
Reading JSON text. A first pass takes the text apart; a second one gives the
parts their meaning and can fail on numbers that are too large, on halves of
surrogate pairs and on data nested too deeply. The passes are apart because
data that nobody asks for only has to survive the first.
-/

namespace SimBus

/-- JSON text taken apart. Strings stand as written between their quotes, and
the members of an object in their order in the text. -/
inductive JsonText where
  | null
  | bool (flag : Bool)
  | number (literal : Json.NumberText)
  | string (body : List Char)
  | array (items : List JsonText)
  | object (members : List (List Char × JsonText))

namespace JsonText

def isBlank (c : Char) : Bool := c == ' ' || c == '\n' || c == '\t' || c == '\r'

def skipBlanks (cs : List Char) : List Char := cs.dropWhile isBlank

/-- The letters that may follow a backslash, apart from `u`. -/
def isEscape (c : Char) : Bool :=
  c ∈ ['"', '\\', '/', 'b', 'f', 'n', 'r', 't']

def readString : List Char → Option (List Char × List Char)
  | [] => none
  | '"' :: rest => some ([], rest)
  | '\\' :: 'u' :: a :: b :: c :: d :: rest =>
      if [a, b, c, d].all Digits.isHexadecimal then
        (readString rest).map fun (body, rest) => ('\\' :: 'u' :: a :: b :: c :: d :: body, rest)
      else none
  | '\\' :: c :: rest =>
      if isEscape c then (readString rest).map fun (body, rest) => ('\\' :: c :: body, rest)
      else none
  | c :: rest =>
      if c = '\\' || c.toNat < 0x20 then none
      else (readString rest).map fun (body, rest) => (c :: body, rest)

def readDigits (cs : List Char) : Option (List Char × List Char) :=
  match cs.takeWhile Char.isDigit with
  | [] => none
  | digits => some (digits, cs.dropWhile Char.isDigit)

def readFraction : List Char → Option (List Char × List Char)
  | '.' :: rest => readDigits rest
  | cs => some ([], cs)

def readExponent (cs : List Char) : Option (Option (Bool × List Char) × List Char) :=
  let signed (cs : List Char) : Bool × List Char :=
    match cs with
    | '+' :: rest => (false, rest)
    | '-' :: rest => (true, rest)
    | _ => (false, cs)
  match cs with
  | c :: rest =>
      if c = 'e' || c = 'E' then
        let (negative, rest) := signed rest
        (readDigits rest).map fun (digits, rest) => (some (negative, digits), rest)
      else some (none, cs)
  | [] => some (none, [])

/-- Reads a number whose sign is read already. Only the number zero begins with
the digit zero. -/
def readNumber (negative : Bool) (cs : List Char) : Option (Json.NumberText × List Char) := do
  let (whole, rest) ← readDigits cs
  if whole.head? = some '0' && whole.length ≠ 1 then none
  else
    let (fraction, rest) ← readFraction rest
    let (exponent, rest) ← readExponent rest
    some (⟨negative, whole, fraction, exponent⟩, rest)

mutual
/-- Reads one datum. Every call is for a shorter text or follows one that is,
so twice the length of the text is enough `fuel`. -/
def read : (fuel : Nat) → List Char → Option (JsonText × List Char)
  | 0, _ => none
  | fuel + 1, cs =>
      match skipBlanks cs with
      | 'n' :: 'u' :: 'l' :: 'l' :: rest => some (.null, rest)
      | 't' :: 'r' :: 'u' :: 'e' :: rest => some (.bool true, rest)
      | 'f' :: 'a' :: 'l' :: 's' :: 'e' :: rest => some (.bool false, rest)
      | '"' :: rest => (readString rest).map fun (body, rest) => (.string body, rest)
      | '[' :: rest =>
          match skipBlanks rest with
          | ']' :: rest => some (.array [], rest)
          | rest => (readItems fuel rest).map fun (items, rest) => (.array items, rest)
      | '{' :: rest =>
          match skipBlanks rest with
          | '}' :: rest => some (.object [], rest)
          | rest => (readMembers fuel rest).map fun (members, rest) => (.object members, rest)
      | '-' :: rest => (readNumber true rest).map fun (literal, rest) => (.number literal, rest)
      | rest => (readNumber false rest).map fun (literal, rest) => (.number literal, rest)

def readItems : (fuel : Nat) → List Char → Option (List JsonText × List Char)
  | 0, _ => none
  | fuel + 1, cs => do
      let (item, rest) ← read fuel cs
      match skipBlanks rest with
      | ',' :: rest => (readItems fuel rest).map fun (items, rest) => (item :: items, rest)
      | ']' :: rest => some ([item], rest)
      | _ => none

def readMembers : (fuel : Nat) → List Char → Option (List (List Char × JsonText) × List Char)
  | 0, _ => none
  | fuel + 1, cs =>
      match skipBlanks cs with
      | '"' :: rest => do
          let (name, rest) ← readString rest
          match skipBlanks rest with
          | ':' :: rest =>
              let (value, rest) ← read fuel rest
              match skipBlanks rest with
              | ',' :: rest =>
                  (readMembers fuel rest).map fun (members, rest) =>
                    ((name, value) :: members, rest)
              | '}' :: rest => some ([(name, value)], rest)
              | _ => none
          | _ => none
      | _ => none
end

/-- Takes a whole text apart. Nothing but blanks may follow the datum. -/
def parse? (text : String) : Option JsonText :=
  let cs := text.toList
  match read (2 * cs.length + 1) cs with
  | some (json, rest) => if (skipBlanks rest).isEmpty then some json else none
  | none => none

inductive Piece where
  | char (c : Char)
  | unit (n : Nat)

def pieces : List Char → List Piece
  | '\\' :: 'u' :: a :: b :: c :: d :: rest =>
      .unit (Digits.number 16 [a, b, c, d]) :: pieces rest
  | '\\' :: c :: rest =>
      let char := match c with
        | 'b' => '\x08'
        | 'f' => '\x0c'
        | 'n' => '\n'
        | 'r' => '\r'
        | 't' => '\t'
        | _ => c
      .char char :: pieces rest
  | c :: rest => .char c :: pieces rest
  | [] => []

/-- Puts the pieces together. Units of a surrogate pair need their other half. -/
def join? : List Piece → Option (List Char)
  | [] => some []
  | .char c :: rest => (join? rest).map (c :: ·)
  | .unit n :: rest =>
      if n < 0xd800 || 0xdfff < n then (join? rest).map (Char.ofNat n :: ·)
      else if 0xdc00 ≤ n then none
      else match rest with
        | .unit low :: rest =>
            if 0xdc00 ≤ low && low ≤ 0xdfff then
              (join? rest).map (Char.ofNat (0x10000 + (n - 0xd800) * 0x400 + (low - 0xdc00)) :: ·)
            else none
        | _ => none

def text? (body : List Char) : Option String := (join? (pieces body)).map String.ofList

mutual
/-- The datum that the text stands for. Lists and objects may be nested in one
another `depth` deep. -/
def toJson? : (depth : Nat) → JsonText → Option Json
  | _, null => some .null
  | _, bool flag => some (.bool flag)
  | _, number literal => literal.toJson?
  | _, string body => (text? body).map .string
  | 0, array _ => none
  | depth + 1, array items => (toJsonList? depth items).map .array
  | 0, object _ => none
  | depth + 1, object members => (toJsonMembers? depth members).map Json.ofMembers

def toJsonList? : (depth : Nat) → List JsonText → Option (List Json)
  | _, [] => some []
  | depth, item :: rest => do
      let json ← toJson? depth item
      let items ← toJsonList? depth rest
      pure (json :: items)

def toJsonMembers? : (depth : Nat) → List (List Char × JsonText) → Option (List (String × Json))
  | _, [] => some []
  | depth, (name, value) :: rest => do
      let name ← text? name
      let json ← toJson? depth value
      let members ← toJsonMembers? depth rest
      pure ((name, json) :: members)
end

def depthLimit : Nat := 127

end JsonText

def Json.parse? (text : String) : Option Json :=
  (JsonText.parse? text).bind (JsonText.toJson? JsonText.depthLimit)

end SimBus
