import SimBus.Proofs.ByteReaders
/-!
The grammar of programs, read byte by byte. Nothing is known of how deep expressions are
nested or how long lists are, so every loop is given the same number of rounds, and
expressions are read to that depth.
-/

namespace SimBus.Surface.Scanner

open Reader (Level levels additiveLevels Part)

section

variable {α : Type} (text : String) (rounds : Nat)

/-! Expressions. -/

def nextOperator (level : Level) : Scanner (Option BinaryOp) := do
  match (← peek text rounds).token with
  | .punct mark => pure (level mark)
  | _ => pure none

def eatOperator (level : Level) : Scanner (Option BinaryOp) := do
  match ← nextOperator text rounds level with
  | none => pure none
  | some op =>
      let _ ← bump text rounds
      pure (some op)

def operators (level : Level) (operand : Scanner Expr) : (more : Nat) → Expr → Scanner Expr
  | 0, _ => (throw .exhausted : Scan _)
  | more + 1, lhs => do
      match ← eatOperator text rounds level with
      | none => pure lhs
      | some op =>
          let rhs ← operand
          operators level operand more (.binary lhs.position op lhs rhs)

def operation (operand : Scanner Expr) : List Level → Scanner Expr
  | [] => operand
  | level :: tighter => do
      let lhs ← operation operand tighter
      operators text rounds level (operation operand tighter) rounds lhs

def argumentTail (item : Scanner α) : (more : Nat) → Scanner (List α)
  | 0 => (throw .exhausted : Scan _)
  | more + 1 => do
      let first ← item
      if ← eat text rounds .rparen then pure [first]
      else
        expect text rounds .comma
        if ← eat text rounds .rparen then pure [first]
        else
          let others ← argumentTail item more
          pure (first :: others)

def argumentList (item : Scanner α) : Scanner (List α) := do
  expect text rounds .lparen
  if ← eat text rounds .rparen then pure []
  else argumentTail text rounds item rounds

def commaList (close : Punct) (item : Scanner α) : (more : Nat) → Scanner (List α)
  | 0 => (throw .exhausted : Scan _)
  | more + 1 => do
      if ← eat text rounds close then pure []
      else
        let first ← item
        if ← eat text rounds .comma then
          let others ← commaList close item more
          pure (first :: others)
        else
          expect text rounds close
          pure [first]

def group (start : Position) (item : Scanner Expr) : Scanner Expr := do
  if ← eat text rounds .rparen then pure (.tuple start [])
  else
    let first ← item
    if ← eat text rounds .rparen then pure first
    else
      expect text rounds .comma
      let others ← commaList text rounds .rparen item rounds
      pure (.tuple start (first :: others))

def dictEntry (item : Scanner Expr) : Scanner (Expr × Expr) := do
  let key ← item
  expect text rounds .colon
  let value ← item
  pure (key, value)

def primary (unary : Scanner Expr) : Scanner Expr := do
  let item := operation text rounds unary levels
  let span ← bump text rounds
  let start ← position text span.start
  match span.token with
  | .integer n => pure (.integer start n)
  | .double x => pure (.double start x)
  | .string text => pure (.string start text)
  | .ident name =>
      if name = "true" then pure (.bool start true)
      else if name = "false" then pure (.bool start false)
      else if name = "choose" then pure (.choice start (← argumentList text rounds item))
      else if ← nextIs text rounds .lparen then
        pure (.call start name (← argumentList text rounds item))
      else pure (.var start name)
  | .punct .lparen => group text rounds start item
  | .punct .lbracket => pure (.array start (← commaList text rounds .rbracket item rounds))
  | .punct .lbrace =>
      pure (.dict start (← commaList text rounds .rbrace (dictEntry text rounds item) rounds))
  | .punct .lt => do
      let inner ← operation text rounds unary additiveLevels
      expect text rounds .gt
      pure (.variant start inner)
  | _ => unexpected text span "an expression"

def unaryStep (unary : Scanner Expr) : Scanner Expr := do
  let span ← peek text rounds
  let start ← position text span.start
  match span.token with
  | .punct .bang =>
      let _ ← bump text rounds
      pure (.not start (← unary))
  | .punct .minus =>
      let _ ← bump text rounds
      pure (.negate start (← unary))
  | .punct .at =>
      let _ ← bump text rounds
      let ty ← type text rounds
      pure (.annotated start ty (← unary))
  | _ => primary text rounds unary

def unary : (depth : Nat) → Scanner Expr
  | 0 => (throw .exhausted : Scan _)
  | depth + 1 => unaryStep text rounds (unary depth)

def expression : Scanner Expr := operation text rounds (unary text rounds rounds) levels

/-! Transitions. -/

def statement : Scanner Statement := do
  let span ← peek text rounds
  let start ← position text span.start
  let parsed ← match span.token with
    | .ident "reply" => do
        let _ ← bump text rounds
        pure (.reply start (← argumentList text rounds (expression text rounds)))
    | .ident "emit" => do
        let _ ← bump text rounds
        let signal ← dottedName text rounds "a signal name"
        pure (.emit start signal.text (← argumentList text rounds (expression text rounds)))
    | .ident "throw" => do
        let _ ← bump text rounds
        let error ← dottedName text rounds "an error name"
        if ← nextIs text rounds .semicolon then pure (.throw start error.text none)
        else pure (.throw start error.text (some (← expression text rounds)))
    | .ident target => do
        let _ ← bump text rounds
        expect text rounds .eq
        pure (.assign start target (← expression text rounds))
    | _ => unexpected text span "a statement"
  expect text rounds .semicolon
  pure parsed

def precondition : Scanner Precondition := do
  let error ← if ← eatWord text rounds "throwing" then
      pure (some (← dottedName text rounds "an error name").text)
    else pure none
  expect text rounds .lbrace
  let condition ← expression text rounds
  expect text rounds .rbrace
  pure ⟨error, condition⟩

def route : Scanner (Name × Name) := do
  if ← eatWord text rounds "inside" then
    let state ← name text rounds "a state name"
    pure (state, state)
  else
    let _ ← expectWord text rounds "from"
    let source ← name text rounds "a state name"
    let _ ← expectWord text rounds "to"
    let target ← name text rounds "a state name"
    pure (source, target)

def trigger : Scanner (Trigger × Position) := do
  let span ← peek text rounds
  let start ← position text span.start
  match span.token with
  | .ident "method" => do
      let _ ← bump text rounds
      pure (.method (← dottedName text rounds "a method name").text, start)
  | .ident "property" => do
      let _ ← bump text rounds
      pure (.property (← dottedName text rounds "a property name").text, start)
  | .ident "arbitrary" => do
      let _ ← bump text rounds
      pure (.arbitrary, start)
  | _ => unexpected text span "'method', 'property' or 'arbitrary'"

def transition : Scanner Transition := do
  let start ← expectWord text rounds "transition"
  let (source, target) ← route text rounds
  let _ ← expectWord text rounds "on"
  let (trigger, triggerPosition) ← trigger text rounds
  expect text rounds .lbrace
  let preconditions ← many (do
      if ← eatWord text rounds "precondition" then pure (some (← precondition text rounds))
      else pure none)
    rounds
  let body ← many (do
      if ← eat text rounds .rbrace then pure none else pure (some (← statement text rounds)))
    rounds
  pure ⟨source, target, trigger, triggerPosition, preconditions, body, start⟩

/-! Objects. -/

def dataVariable : Scanner DataVariable := do
  let declared ← name text rounds "a variable name"
  expect text rounds .colon
  let ty ← type text rounds
  expect text rounds .eq
  let initializer ← expression text rounds
  expect text rounds .semicolon
  pure ⟨declared.text, ty, initializer, declared.position⟩

def block (item : Scanner α) : Scanner (List α) := do
  expect text rounds .lbrace
  many (do
      if ← eat text rounds .rbrace then pure none else pure (some (← item)))
    rounds

def state : Scanner Name := do
  let state ← name text rounds "a state name"
  expect text rounds .semicolon
  pure state

def part : Scanner (Option Part) := do
  let span ← peek text rounds
  match span.token with
  | .punct .rbrace => do
      let _ ← bump text rounds
      pure none
  | .ident "data" => do
      let _ ← bump text rounds
      pure (some (.data (← block text rounds (dataVariable text rounds))))
  | .ident "states" => do
      let _ ← bump text rounds
      pure (some (.states (← block text rounds (state text rounds))))
  | .ident "transition" => pure (some (.transition (← transition text rounds)))
  | _ => unexpected text span "'data', 'states', 'transition' or '\x7d'"

def claims : Scanner (List String) :=
  many (do
      if ← eat text rounds .comma then
        let _ ← expectWord text rounds "well"
        expect text rounds .minus
        let _ ← expectWord text rounds "known"
        let _ ← expectWord text rounds "name"
        pure (some (← dottedName text rounds "a bus name").text)
      else pure none)
    rounds

def interfaces : Scanner (List Name) := do
  let first ← dottedName text rounds "an interface name"
  let others ← many (do
      if ← eat text rounds .comma then pure (some (← dottedName text rounds "an interface name"))
      else pure none)
    rounds
  pure (first :: others)

def object : Scanner Object := do
  let start ← expectWord text rounds "object"
  let _ ← expectWord text rounds "at"
  let path ← objectPath text rounds
  let names ← claims text rounds
  let _ ← expectWord text rounds "implements"
  let interfaces ← interfaces text rounds
  expect text rounds .lbrace
  let parts ← many (part text rounds) rounds
  pure ⟨path, names, interfaces, parts.flatMap Part.dataVariables, parts.flatMap Part.names,
    parts.filterMap Part.transition?, start⟩

def program : Scanner (List Object) :=
  many (do
      match (← peek text rounds).token with
      | .endOfText => pure none
      | _ => pure (some (← object text rounds)))
    rounds

end

end SimBus.Surface.Scanner

namespace SimBus.Surface.Source

/-- Parses a text byte by byte; no loop may take more than so many rounds. -/
def parse (text : String) (rounds : Nat) : Scan (List Object) :=
  Prod.fst <$> (Scanner.program text rounds).run 0

end SimBus.Surface.Source
