import SimBus.Surface.Token
/-!
The grammar of programs. Readers take tokens from a cursor. Nested expressions
are read with a bound on their nesting and lists with a bound on their length;
the number of characters left is enough for both, because every level and
every item takes at least one.
-/

namespace SimBus.Surface

abbrev Reader := StateT Cursor (Except GrammarError)

namespace Reader

variable {α : Type}

def fail (position : Position) (expected found : String) : Reader α :=
  throw ⟨position, expected, found⟩

def remaining : Reader Nat := do return (← get).rest.length

/-- The next token. It is not taken; the cursor moves behind the blanks and
comments before it. -/
def peek : Reader Lexeme := do
  let cursor ← (← get).skip
  set cursor
  let lexeme ← readToken cursor
  pure lexeme

def take (lexeme : Lexeme) : Reader Unit := set lexeme.after

def unexpected (lexeme : Lexeme) (expected : String) : Reader α :=
  fail lexeme.position expected lexeme.token.describe

def nextIs (mark : Punct) : Reader Bool := do
  match (← peek).token with
  | .punct found => pure (found == mark)
  | _ => pure false

def eat (mark : Punct) : Reader Bool := do
  let lexeme ← peek
  match lexeme.token with
  | .punct found =>
      if found = mark then
        take lexeme
        pure true
      else pure false
  | _ => pure false

def expect (mark : Punct) : Reader Unit := do
  let lexeme ← peek
  match lexeme.token with
  | .punct found =>
      if found = mark then take lexeme else unexpected lexeme ("'" ++ mark.text ++ "'")
  | _ => unexpected lexeme ("'" ++ mark.text ++ "'")

def eatWord (word : String) : Reader Bool := do
  let lexeme ← peek
  match lexeme.token with
  | .ident name =>
      if name = word then
        take lexeme
        pure true
      else pure false
  | _ => pure false

def expectWord (word : String) : Reader Position := do
  let lexeme ← peek
  match lexeme.token with
  | .ident name =>
      if name = word then
        take lexeme
        pure lexeme.position
      else unexpected lexeme ("'" ++ word ++ "'")
  | _ => unexpected lexeme ("'" ++ word ++ "'")

def name (what : String) : Reader Name := do
  let lexeme ← peek
  match lexeme.token with
  | .ident text =>
      take lexeme
      pure ⟨text, lexeme.position⟩
  | _ => unexpected lexeme what

def collect (step : Reader (Option α)) : (bound : Nat) → Reader (List α)
  | 0 => do
      match ← step with
      | none => pure []
      | some item => pure [item]
  | bound + 1 => do
      match ← step with
      | none => pure []
      | some item => do
          let items ← collect step bound
          pure (item :: items)

/-- The rest of a list, after each item of which a comma may stand; only the
last item can do without. -/
def commaList (close : Punct) (item : Reader α) : (bound : Nat) → Reader (List α)
  | 0 => do
      if ← eat close then pure []
      else
        let last ← item
        pure [last]
  | bound + 1 => do
      if ← eat close then pure []
      else
        let first ← item
        if ← eat .comma then
          let others ← commaList close item bound
          pure (first :: others)
        else
          expect close
          pure [first]

def argumentTail (item : Reader α) : (bound : Nat) → Reader (List α)
  | 0 => do
      let last ← item
      pure [last]
  | bound + 1 => do
      let first ← item
      if ← eat .rparen then pure [first]
      else
        expect .comma
        if ← eat .rparen then pure [first]
        else
          let others ← argumentTail item bound
          pure (first :: others)

/-- Arguments between brackets, with commas between them and perhaps after the
last. -/
def argumentList (item : Reader α) : Reader (List α) := do
  expect .lparen
  if ← eat .rparen then pure []
  else argumentTail item (← remaining)

def nameTail (what : String) : (bound : Nat) → Reader (List String) :=
  collect do
    if ← eat .dot then
      let part ← name what
      pure (some part.text)
    else pure none

def dottedName (what : String) : Reader Name := do
  let first ← name what
  let others ← nameTail what (← remaining)
  pure ⟨".".intercalate (first.text :: others), first.position⟩

def isPathChar (c : Char) : Bool := isNameChar c || c == '/'

/-- An object path is read as it stands, from its slash on. -/
def objectPath : Reader String := do
  let cursor ← (← get).skip
  set cursor
  match cursor.rest with
  | '/' :: _ =>
      let path := cursor.rest.takeWhile isPathChar
      set (cursor.advance path.length)
      pure (String.ofList path)
  | _ =>
      let lexeme ← peek
      fail cursor.position "an object path" lexeme.token.describe

/-- A type is read as it stands; no letter may follow it. -/
def type : Reader Ty := do
  let cursor ← (← get).skip
  set cursor
  match cursor.rest with
  | c :: _ =>
      if Ty.startsWith c then
        match Ty.readFront cursor.rest with
        | .error fault => fail cursor.position "a type signature" fault.reason
        | .ok (ty, rest) =>
            let after := cursor.advance (cursor.rest.length - rest.length)
            match rest with
            | next :: _ =>
                if isNameChar next then
                  fail after.position "end of type signature" ("'" ++ String.singleton next ++ "'")
                else
                  set after
                  pure ty
            | [] =>
                set after
                pure ty
      else
        let lexeme ← peek
        fail cursor.position "a type signature" lexeme.token.describe
  | [] =>
      let lexeme ← peek
      fail cursor.position "a type signature" lexeme.token.describe

/-- The operators of one level of binding. -/
abbrev Level := Punct → Option BinaryOp

/-- The levels of the binary operators, from the loosest to the tightest. -/
def levels : List Level :=
  [ fun | .orOr => some .or | _ => none,
    fun | .andAnd => some .and | _ => none,
    fun | .eqEq => some .eq | .notEq => some .ne | _ => none,
    fun | .le => some .le | .ge => some .ge | .lt => some .lt | .gt => some .gt | _ => none,
    fun | .plus => some .add | .minus => some .sub | _ => none,
    fun | .star => some .mul | .slash => some .div | .percent => some .rem | _ => none ]

def additiveLevels : List Level := levels.drop 4

def eatOperator (level : Level) : Reader (Option BinaryOp) := do
  let lexeme ← peek
  match lexeme.token with
  | .punct mark =>
      match level mark with
      | some op =>
          take lexeme
          pure (some op)
      | none => pure none
  | _ => pure none

/-- Operators of one level and their right operands, grouped to the left. -/
def operatorChain (level : Level) (operand : Reader Expr) : (bound : Nat) → Expr → Reader Expr
  | 0, lhs => pure lhs
  | bound + 1, lhs => do
      match ← eatOperator level with
      | none => pure lhs
      | some op =>
          let rhs ← operand
          operatorChain level operand bound (.binary lhs.position op lhs rhs)

def operation (operand : Reader Expr) : List Level → Reader Expr
  | [] => operand
  | level :: tighter => do
      let lhs ← operation operand tighter
      operatorChain level (operation operand tighter) (← remaining) lhs

def group (start : Position) (item : Reader Expr) : Reader Expr := do
  if ← eat .rparen then pure (.tuple start [])
  else
    let first ← item
    if ← eat .rparen then pure first
    else
      expect .comma
      let others ← commaList .rparen item (← remaining)
      pure (.tuple start (first :: others))

def dictEntry (item : Reader Expr) : Reader (Expr × Expr) := do
  let key ← item
  expect .colon
  let value ← item
  pure (key, value)

/-- An operand without unary operators; `unary` reads the operands in it. -/
def primary (unary : Reader Expr) : Reader Expr := do
  let item := operation unary levels
  let lexeme ← peek
  take lexeme
  let start := lexeme.position
  match lexeme.token with
  | .integer n => pure (.integer start n)
  | .double x => pure (.double start x)
  | .string text => pure (.string start text)
  | .ident name =>
      if name = "true" then pure (.bool start true)
      else if name = "false" then pure (.bool start false)
      else if name = "choose" then pure (.choice start (← argumentList item))
      else if ← nextIs .lparen then pure (.call start name (← argumentList item))
      else pure (.var start name)
  | .punct .lparen => group start item
  | .punct .lbracket => pure (.array start (← commaList .rbracket item (← remaining)))
  | .punct .lbrace => pure (.dict start (← commaList .rbrace (dictEntry item) (← remaining)))
  | .punct .lt => do
      let inner ← operation unary additiveLevels
      expect .gt
      pure (.variant start inner)
  | _ => unexpected lexeme "an expression"

def unaryStep (unary : Reader Expr) : Reader Expr := do
  let lexeme ← peek
  let start := lexeme.position
  match lexeme.token with
  | .punct .bang =>
      take lexeme
      pure (.not start (← unary))
  | .punct .minus =>
      take lexeme
      pure (.negate start (← unary))
  | .punct .at =>
      take lexeme
      let ty ← type
      pure (.annotated start ty (← unary))
  | _ => primary unary

/-- An operand in a text with at most `bound` characters left. -/
def unary : (bound : Nat) → Reader Expr
  | 0 => unaryStep do unexpected (← peek) "an expression"
  | bound + 1 => unaryStep (unary bound)

def expression : Reader Expr := do
  operation (unary (← remaining)) levels

def statement : Reader Statement := do
  let lexeme ← peek
  let start := lexeme.position
  let parsed ← match lexeme.token with
    | .ident "reply" => do
        take lexeme
        pure (.reply start (← argumentList expression))
    | .ident "emit" => do
        take lexeme
        let signal ← dottedName "a signal name"
        pure (.emit start signal.text (← argumentList expression))
    | .ident "throw" => do
        take lexeme
        let error ← dottedName "an error name"
        if ← nextIs .semicolon then pure (.throw start error.text none)
        else pure (.throw start error.text (some (← expression)))
    | .ident target => do
        take lexeme
        expect .eq
        pure (.assign start target (← expression))
    | _ => unexpected lexeme "a statement"
  expect .semicolon
  pure parsed

def precondition : Reader Precondition := do
  let error ← if ← eatWord "throwing" then
      pure (some (← dottedName "an error name").text)
    else pure none
  expect .lbrace
  let condition ← expression
  expect .rbrace
  pure ⟨error, condition⟩

def route : Reader (Name × Name) := do
  if ← eatWord "inside" then
    let state ← name "a state name"
    pure (state, state)
  else
    let _ ← expectWord "from"
    let source ← name "a state name"
    let _ ← expectWord "to"
    let target ← name "a state name"
    pure (source, target)

def trigger : Reader (Trigger × Position) := do
  let lexeme ← peek
  match lexeme.token with
  | .ident "method" => do
      take lexeme
      pure (.method (← dottedName "a method name").text, lexeme.position)
  | .ident "property" => do
      take lexeme
      pure (.property (← dottedName "a property name").text, lexeme.position)
  | .ident "arbitrary" => do
      take lexeme
      pure (.arbitrary, lexeme.position)
  | _ => unexpected lexeme "'method', 'property' or 'arbitrary'"

def transition : Reader Transition := do
  let start ← expectWord "transition"
  let (source, target) ← route
  let _ ← expectWord "on"
  let (trigger, triggerPosition) ← trigger
  expect .lbrace
  let preconditions ← collect (do
      if ← eatWord "precondition" then pure (some (← precondition)) else pure none)
    (← remaining)
  let body ← collect (do
      if ← eat .rbrace then pure none else pure (some (← statement)))
    (← remaining)
  pure ⟨source, target, trigger, triggerPosition, preconditions, body, start⟩

def dataVariable : Reader DataVariable := do
  let declared ← name "a variable name"
  expect .colon
  let ty ← type
  expect .eq
  let initializer ← expression
  expect .semicolon
  pure ⟨declared.text, ty, initializer, declared.position⟩

def block (item : Reader α) : Reader (List α) := do
  expect .lbrace
  collect (do
      if ← eat .rbrace then pure none else pure (some (← item)))
    (← remaining)

def state : Reader Name := do
  let state ← name "a state name"
  expect .semicolon
  pure state

/-- A part of an object. Data and states may be given in several blocks. -/
inductive Part where
  | data (declared : List DataVariable)
  | states (names : List Name)
  | transition (transition : Transition)

def Part.dataVariables : Part → List DataVariable
  | data declared => declared
  | _ => []

def Part.names : Part → List Name
  | states names => names
  | _ => []

def Part.transition? : Part → Option Transition
  | transition t => some t
  | _ => none

def part : Reader (Option Part) := do
  let lexeme ← peek
  match lexeme.token with
  | .punct .rbrace => do
      take lexeme
      pure none
  | .ident "data" => do
      take lexeme
      pure (some (.data (← block dataVariable)))
  | .ident "states" => do
      take lexeme
      pure (some (.states (← block state)))
  | .ident "transition" => pure (some (.transition (← transition)))
  | _ => unexpected lexeme "'data', 'states', 'transition' or '\x7d'"

def claims : Reader (List String) := do
  collect (do
      if ← eat .comma then
        let _ ← expectWord "well"
        expect .minus
        let _ ← expectWord "known"
        let _ ← expectWord "name"
        pure (some (← dottedName "a bus name").text)
      else pure none)
    (← remaining)

def interfaces : Reader (List Name) := do
  let first ← dottedName "an interface name"
  let others ← collect (do
      if ← eat .comma then pure (some (← dottedName "an interface name")) else pure none)
    (← remaining)
  pure (first :: others)

def object : Reader Object := do
  let start ← expectWord "object"
  let _ ← expectWord "at"
  let path ← objectPath
  let names ← claims
  let _ ← expectWord "implements"
  let interfaces ← interfaces
  expect .lbrace
  let parts ← collect part (← remaining)
  pure ⟨path, names, interfaces, parts.flatMap Part.dataVariables, parts.flatMap Part.names,
    parts.filterMap Part.transition?, start⟩

def program : Reader (List Object) := do
  collect (do
      match (← peek).token with
      | .endOfText => pure none
      | _ => pure (some (← object)))
    (← remaining)

end Reader

def parse (text : String) : Except GrammarError (List Object) :=
  (Reader.program.run (Cursor.start text)).map Prod.fst

end SimBus.Surface
