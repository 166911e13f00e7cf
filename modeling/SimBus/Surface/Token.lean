import SimBus.Surface
import SimBus.Decimal.Style
import SimBus.Ty.Signature
import SimBus.Text.Digits
/-!
The tokens of a program text. Tokens are read one at a time at a cursor,
because where a type or an object path is expected the text is read in another
way. Blanks and comments may stand before every token.
-/

namespace SimBus.Surface

structure Cursor where
  rest : List Char
  position : Position

structure GrammarError where
  position : Position
  expected : String
  found : String
  deriving DecidableEq

def GrammarError.message (e : GrammarError) : String :=
  "syntax error: expected " ++ e.expected ++ ", found " ++ e.found

namespace Cursor

def start (text : String) : Cursor := ⟨text.toList, ⟨1, 1⟩⟩

def advance : (count : Nat) → Cursor → Cursor
  | count + 1, ⟨c :: rest, p⟩ => advance count ⟨rest, p.after c⟩
  | _, cursor => cursor

end Cursor

inductive Trivia where
  | blanks
  | line
  | block (start : Position)

def isBlank (c : Char) : Bool :=
  c == ' ' || c == '\t' || c == '\n' || c == '\x0c' || c == '\r'

/-- Skips blanks and comments. A line comment ends with its line; a block
comment has to be closed. -/
def skipTrivia : Trivia → List Char → Position → Except GrammarError Cursor
  | .block start, [], _ => .error ⟨start, "'*/'", "unterminated comment"⟩
  | .block _, '*' :: '/' :: rest, p => skipTrivia .blanks rest ⟨p.line, p.column + 2⟩
  | .block start, c :: rest, p => skipTrivia (.block start) rest (p.after c)
  | .line, [], p => .ok ⟨[], p⟩
  | .line, c :: rest, p =>
      skipTrivia (if c = '\n' then .blanks else .line) rest (p.after c)
  | .blanks, '/' :: '/' :: rest, p => skipTrivia .line rest ⟨p.line, p.column + 2⟩
  | .blanks, '/' :: '*' :: rest, p => skipTrivia (.block p) rest ⟨p.line, p.column + 2⟩
  | .blanks, c :: rest, p =>
      if isBlank c then skipTrivia .blanks rest (p.after c) else .ok ⟨c :: rest, p⟩
  | .blanks, [], p => .ok ⟨[], p⟩

inductive Punct where
  | andAnd | orOr | eqEq | notEq | le | ge
  | lbrace | rbrace | lparen | rparen | lbracket | rbracket
  | semicolon | comma | colon | dot | at | lt | gt | eq | bang
  | plus | minus | star | slash | percent
  deriving DecidableEq, Repr

def Punct.text : Punct → String
  | andAnd => "&&"
  | orOr => "||"
  | eqEq => "=="
  | notEq => "!="
  | le => "<="
  | ge => ">="
  | lbrace => "\x7b"
  | rbrace => "\x7d"
  | lparen => "("
  | rparen => ")"
  | lbracket => "["
  | rbracket => "]"
  | semicolon => ";"
  | comma => ","
  | colon => ":"
  | dot => "."
  | Punct.at => "@"
  | lt => "<"
  | gt => ">"
  | eq => "="
  | bang => "!"
  | plus => "+"
  | minus => "-"
  | star => "*"
  | slash => "/"
  | percent => "%"

inductive Token where
  | ident (name : String)
  | string (text : String)
  | integer (n : Nat)
  | double (x : Float)
  | punct (p : Punct)
  | endOfText

/-- Numbers in error messages are never written with a power of ten. -/
def Token.numberStyle : DecimalStyle where
  plain _ := true
  pointZero := false
  plusSign := []
  tie := .up

def Token.describe : Token → String
  | ident name => "'" ++ name ++ "'"
  | string _ => "string literal"
  | integer n => "integer " ++ toString n
  | double x => "number " ++ numberStyle.write x
  | punct p => "'" ++ p.text ++ "'"
  | endOfText => "end of input"

structure Lexeme where
  token : Token
  position : Position
  after : Cursor

def isLetter (c : Char) : Bool := c.isAlpha || c == '_'

def isNameChar (c : Char) : Bool := c.isAlphanum || c == '_'

/-- The mark at the front of the text, the longest that fits. -/
def punct? : List Char → Option (Punct × Nat)
  | '&' :: '&' :: _ => some (.andAnd, 2)
  | '|' :: '|' :: _ => some (.orOr, 2)
  | '=' :: '=' :: _ => some (.eqEq, 2)
  | '!' :: '=' :: _ => some (.notEq, 2)
  | '<' :: '=' :: _ => some (.le, 2)
  | '>' :: '=' :: _ => some (.ge, 2)
  | c :: _ =>
      match c with
      | '{' => some (.lbrace, 1)
      | '}' => some (.rbrace, 1)
      | '(' => some (.lparen, 1)
      | ')' => some (.rparen, 1)
      | '[' => some (.lbracket, 1)
      | ']' => some (.rbracket, 1)
      | ';' => some (.semicolon, 1)
      | ',' => some (.comma, 1)
      | ':' => some (.colon, 1)
      | '.' => some (.dot, 1)
      | '@' => some (.at, 1)
      | '<' => some (.lt, 1)
      | '>' => some (.gt, 1)
      | '=' => some (.eq, 1)
      | '!' => some (.bang, 1)
      | '+' => some (.plus, 1)
      | '-' => some (.minus, 1)
      | '*' => some (.star, 1)
      | '/' => some (.slash, 1)
      | '%' => some (.percent, 1)
      | _ => none
  | [] => none

/-- One more than the greatest integer that can be written. -/
def integerLimit : Nat := 1 <<< 127

/-- A point and digits behind a whole number, if both are there. -/
def fraction? : List Char → Option (List Char)
  | '.' :: c :: rest => if c.isDigit then some ((c :: rest).takeWhile Char.isDigit) else none
  | _ => none

def power? : List Char → Option (List Char × List Char)
  | e :: rest =>
      if e = 'e' || e = 'E' then
        let (sign, rest) := match rest with
          | '+' :: rest => (['+'], rest)
          | '-' :: rest => (['-'], rest)
          | _ => ([], rest)
        match rest.takeWhile Char.isDigit with
        | [] => none
        | digits => some (sign, digits)
      else none
  | [] => none

/-- Reads a decimal number: an integer, or with a fraction or a power of ten a
double. -/
def readDecimal (cs : List Char) : Except (String × String) (Token × Nat) :=
  let whole := cs.takeWhile Char.isDigit
  let rest := cs.drop whole.length
  let fraction := fraction? rest
  let fractionSize := match fraction with
    | some digits => digits.length + 1
    | none => 0
  let power := power? (rest.drop fractionSize)
  match fraction, power with
  | none, none =>
      let n := Digits.number 10 whole
      if n < integerLimit then .ok (.integer n, whole.length)
      else .error ("an integer", "'" ++ String.ofList whole ++ "'")
  | _, _ =>
      let fraction := fraction.getD []
      let mantissa := Digits.number 10 (whole ++ fraction)
      let (exponent, powerSize) : Int × Nat := match power with
        | some (sign, digits) =>
            let n : Int := Digits.number 10 digits
            (if sign = ['-'] then -n else n, 1 + sign.length + digits.length)
        | none => (0, 0)
      let exponent := exponent - fraction.length
      .ok (.double (Float.ofScientific mantissa (decide (exponent < 0)) exponent.natAbs),
        whole.length + fractionSize + powerSize)

def readHexadecimal (digits : List Char) : Except (String × String) (Token × Nat) :=
  let digits := digits.takeWhile Digits.isHexadecimal
  let n := Digits.number 16 digits
  if digits.isEmpty || integerLimit ≤ n then .error ("a hexadecimal integer", "invalid digits")
  else .ok (.integer n, digits.length + 2)

def readNumber : List Char → Except (String × String) (Token × Nat)
  | '0' :: 'x' :: rest => readHexadecimal rest
  | '0' :: 'X' :: rest => readHexadecimal rest
  | cs => readDecimal cs

def escape? : Char → Option Char
  | '"' => some '"'
  | '\\' => some '\\'
  | 'n' => some '\n'
  | 't' => some '\t'
  | 'r' => some '\r'
  | _ => none

def readString (start : Position) :
    List Char → Position → Except GrammarError (List Char × Cursor)
  | [], _ => .error ⟨start, "'\"'", "unterminated string literal"⟩
  | '"' :: rest, p => .ok ([], ⟨rest, p.after '"'⟩)
  | '\\' :: c :: rest, p =>
      match escape? c with
      | none => .error ⟨p, "a valid escape", "'\\" ++ String.singleton c ++ "'"⟩
      | some meant => do
          let (text, cursor) ← readString start rest ⟨p.line, p.column + 2⟩
          pure (meant :: text, cursor)
  | c :: rest, p =>
      if c = '\\' then .error ⟨start, "'\"'", "unterminated string literal"⟩
      else do
        let (text, cursor) ← readString start rest (p.after c)
        pure (c :: text, cursor)

def readToken (cursor : Cursor) : Except GrammarError Lexeme :=
  let p := cursor.position
  match cursor.rest with
  | [] => .ok ⟨.endOfText, p, cursor⟩
  | c :: rest =>
      if isLetter c then
        let name := (c :: rest).takeWhile isNameChar
        .ok ⟨.ident (String.ofList name), p, cursor.advance name.length⟩
      else if c.isDigit then
        match readNumber (c :: rest) with
        | .ok (token, size) => .ok ⟨token, p, cursor.advance size⟩
        | .error (expected, found) => .error ⟨p, expected, found⟩
      else if c = '"' then do
        let (text, after) ← readString p rest (p.after c)
        pure ⟨.string (String.ofList text), p, after⟩
      else match punct? (c :: rest) with
        | some (mark, size) => .ok ⟨.punct mark, p, cursor.advance size⟩
        | none => .error ⟨p, "a token", "character '" ++ String.singleton c ++ "'"⟩

def Cursor.skip (cursor : Cursor) : Except GrammarError Cursor :=
  skipTrivia .blanks cursor.rest cursor.position

def Cursor.next (cursor : Cursor) : Except GrammarError Lexeme := do
  readToken (← cursor.skip)

end SimBus.Surface
