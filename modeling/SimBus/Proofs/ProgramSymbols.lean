import SimBus.Proofs.SignatureRoundTrip
import SimBus.Surface.Reader
/-!
How programs are written out: as symbols first, with brackets only where the operators
need them, and the symbols then as text, with any blanks and comments between them.
-/

namespace SimBus.Surface

/-- A word is a keyword or a part of a name. -/
inductive Symbol where
  | word (name : String)
  | integer (n : Nat)
  | string (text : String)
  | punct (mark : Punct)
  | type (ty : Ty)
  | path (path : String)

/-! Symbols as text. -/

inductive Radix where
  | decimal
  | hexadecimal (capital : Bool)

def letterCase (capital : Bool) (c : Char) : Char := if capital then c.toUpper else c

def Radix.spell : Radix → Nat → List Char
  | decimal, n => Nat.toDigits 10 n
  | hexadecimal capital, n => '0' :: 'x' :: (Nat.toDigits 16 n).map (letterCase capital)

def escaped (c : Char) : List Char :=
  if c = '"' ∨ c = '\\' then ['\\', c] else [c]

def Symbol.spell (radix : Radix) : Symbol → List Char
  | word name => name.toList
  | integer n => radix.spell n
  | string text => '"' :: (text.toList.flatMap escaped ++ ['"'])
  | punct mark => mark.text.toList
  | type ty => ty.letters
  | path p => p.toList

inductive Filler where
  | blank (c : Char) (isBlank : isBlank c = true)
  | line (text : List Char) (oneLine : '\n' ∉ text)
  | block (text : List Char) (unclosed : ¬ ['*', '/'] <:+: text)

def Filler.text : Filler → List Char
  | blank c _ => [c]
  | line text _ => '/' :: '/' :: (text ++ ['\n'])
  | block text _ => '/' :: '*' :: (text ++ ['*', '/'])

def fillerText (fillers : List Filler) : List Char := fillers.flatMap Filler.text

structure Gap where
  first : Char
  isBlank : isBlank first = true
  more : List Filler

def Gap.text (gap : Gap) : List Char := gap.first :: fillerText gap.more

/-- How the symbols of a program are set: what stands before the first of them, between
one and the next, and behind the last, and how integers are spelled. -/
structure Layout where
  lead : List Filler
  gap : (index : Nat) → Gap
  trail : Option Gap
  radix : (index : Nat) → Radix

namespace Layout

def spell (layout : Layout) : (index : Nat) → List Symbol → List Char
  | _, [] => (layout.trail.map Gap.text).getD []
  | index, s :: rest =>
      s.spell (layout.radix index) ++
        ((if rest.isEmpty then [] else (layout.gap index).text) ++ layout.spell (index + 1) rest)

def text (layout : Layout) (symbols : List Symbol) : String :=
  String.ofList (fillerText layout.lead ++ layout.spell 0 symbols)

end Layout

/-! Programs as symbols. -/

def dotted (name : String) : List Symbol :=
  [.punct .dot].intercalate
    ((name.toList.splitOn '.').map fun part => [.word (String.ofList part)])

def commaSeparated (items : List (List Symbol)) : List Symbol := [.punct .comma].intercalate items

def enclosed (opening closing : Punct) (inner : List Symbol) : List Symbol :=
  .punct opening :: (inner ++ [.punct closing])

def argumentSymbols (items : List (List Symbol)) : List Symbol :=
  enclosed .lparen .rparen (commaSeparated items)

/-- A tuple of one needs a comma, or else it is no tuple. -/
def tupleSymbols (items : List (List Symbol)) : List Symbol :=
  enclosed .lparen .rparen
    (commaSeparated items ++ if items.length = 1 then [.punct .comma] else [])

def markOf : BinaryOp → Punct
  | .mul => .star
  | .div => .slash
  | .rem => .percent
  | .add => .plus
  | .sub => .minus
  | .lt => .lt
  | .le => .le
  | .gt => .gt
  | .ge => .ge
  | .eq => .eqEq
  | .ne => .notEq
  | .and => .andAnd
  | .or => .orOr

def levelOf : BinaryOp → Nat
  | .or => 0
  | .and => 1
  | .eq | .ne => 2
  | .lt | .le | .gt | .ge => 3
  | .add | .sub => 4
  | .mul | .div | .rem => 5

def unaryLevel : Nat := 6

def additiveLevel : Nat := 4

namespace Expr

mutual
/-- An expression where the operators outside bind less tightly than `level`. -/
def symbols : (level : Nat) → Expr → List Symbol
  | _, bool _ flag => [.word (if flag then "true" else "false")]
  | _, integer _ n => [.integer n]
  | _, double _ _ => []
  | _, string _ text => [.string text]
  | _, var _ name => [.word name]
  | _, call _ function arguments => .word function :: argumentSymbols (symbolsOfList arguments)
  | _, tuple _ items => tupleSymbols (symbolsOfList items)
  | _, array _ items => enclosed .lbracket .rbracket (commaSeparated (symbolsOfList items))
  | _, dict _ entries => enclosed .lbrace .rbrace (commaSeparated (symbolsOfEntries entries))
  | _, variant _ inner => enclosed .lt .gt (inner.symbols additiveLevel)
  | _, annotated _ ty inner => .punct .at :: .type ty :: inner.symbols unaryLevel
  | _, choice _ alternatives => .word "choose" :: argumentSymbols (symbolsOfList alternatives)
  | _, not _ operand => .punct .bang :: operand.symbols unaryLevel
  | _, negate _ operand => .punct .minus :: operand.symbols unaryLevel
  | level, binary _ op lhs rhs =>
      let operation :=
        lhs.symbols (levelOf op) ++ .punct (markOf op) :: rhs.symbols (levelOf op + 1)
      if levelOf op < level then enclosed .lparen .rparen operation else operation

def symbolsOfList : List Expr → List (List Symbol)
  | [] => []
  | item :: rest => item.symbols 0 :: symbolsOfList rest

def symbolsOfEntries : List (Expr × Expr) → List (List Symbol)
  | [] => []
  | (key, value) :: rest =>
      (key.symbols 0 ++ .punct .colon :: value.symbols 0) :: symbolsOfEntries rest
end

theorem symbolsOfList_eq (items : List Expr) : symbolsOfList items = items.map (symbols 0) := by
  induction items with
  | nil => rfl
  | cons item rest ih => rw [symbolsOfList, ih, List.map_cons]

def entrySymbols (entry : Expr × Expr) : List Symbol :=
  entry.1.symbols 0 ++ .punct .colon :: entry.2.symbols 0

theorem symbolsOfEntries_eq (entries : List (Expr × Expr)) :
    symbolsOfEntries entries = entries.map entrySymbols := by
  induction entries with
  | nil => rfl
  | cons entry rest ih => rw [symbolsOfEntries, ih, List.map_cons, entrySymbols]

end Expr

def Statement.symbols : Statement → List Symbol
  | assign _ name value => .word name :: .punct .eq :: (value.symbols 0 ++ [.punct .semicolon])
  | reply _ arguments =>
      .word "reply" :: (argumentSymbols (arguments.map (Expr.symbols 0)) ++ [.punct .semicolon])
  | emit _ signal arguments =>
      .word "emit" :: (dotted signal ++
        (argumentSymbols (arguments.map (Expr.symbols 0)) ++ [.punct .semicolon]))
  | throw _ error message =>
      .word "throw" :: (dotted error ++
        (message.elim [] (Expr.symbols 0) ++ [.punct .semicolon]))

def Precondition.guardSymbols (p : Precondition) : List Symbol :=
  p.error.elim [] (fun error => .word "throwing" :: dotted error) ++
    enclosed .lbrace .rbrace (p.condition.symbols 0)

def Precondition.symbols (p : Precondition) : List Symbol := .word "precondition" :: p.guardSymbols

def Trigger.symbols : Trigger → List Symbol
  | method name => .word "method" :: dotted name
  | property name => .word "property" :: dotted name
  | arbitrary => [.word "arbitrary"]

namespace Transition

def route (t : Transition) (short : Bool) : List Symbol :=
  if short && t.source.text == t.target.text then [.word "inside", .word t.source.text]
  else [.word "from", .word t.source.text, .word "to", .word t.target.text]

def symbols (t : Transition) (short : Bool) : List Symbol :=
  .word "transition" :: (t.route short ++ .word "on" :: (t.trigger.symbols ++
    enclosed .lbrace .rbrace
      (t.preconditions.flatMap Precondition.symbols ++ t.body.flatMap Statement.symbols)))

end Transition

def DataVariable.symbols (d : DataVariable) : List Symbol :=
  .word d.name :: .punct .colon :: .type d.ty :: .punct .eq ::
    (d.initializer.symbols 0 ++ [.punct .semicolon])

def stateSymbols (state : Name) : List Symbol := [.word state.text, .punct .semicolon]

/-- How the parts of an object are arranged, which is free but for their order within
each kind, and which transitions are given in the shorter form. -/
structure Style where
  parts : Object → List Reader.Part
  data : ∀ o, (parts o).flatMap Reader.Part.dataVariables = o.data
  states : ∀ o, (parts o).flatMap Reader.Part.names = o.states
  transitions : ∀ o, (parts o).filterMap Reader.Part.transition? = o.transitions
  short : Transition → Bool

namespace Style

def partSymbols (style : Style) : Reader.Part → List Symbol
  | .data declared =>
      .word "data" :: enclosed .lbrace .rbrace (declared.flatMap DataVariable.symbols)
  | .states names => .word "states" :: enclosed .lbrace .rbrace (names.flatMap stateSymbols)
  | .transition t => t.symbols (style.short t)

def claimSymbols (name : String) : List Symbol :=
  .punct .comma :: .word "well" :: .punct .minus :: .word "known" :: .word "name" :: dotted name

def objectSymbols (style : Style) (o : Object) : List Symbol :=
  .word "object" :: .word "at" :: .path o.path :: (o.names.flatMap claimSymbols ++
    .word "implements" :: (commaSeparated (o.interfaces.map fun i => dotted i.text) ++
      enclosed .lbrace .rbrace ((style.parts o).flatMap style.partSymbols)))

def write (style : Style) (layout : Layout) (objects : List Object) : String :=
  layout.text (objects.flatMap style.objectSymbols)

end Style

/-! Which programs can be written. -/

def isWord : List Char → Bool
  | c :: rest => isLetter c && rest.all isNameChar
  | [] => false

def isDotted (name : String) : Bool := (name.toList.splitOn '.').all isWord

/-- A path that is not taken for a comment. -/
def isWrittenPath : List Char → Bool
  | '/' :: rest => rest.all Reader.isPathChar && rest.head? != some '/'
  | _ => false

def reserved : List String := ["true", "false", "choose"]

def isOperand (name : String) : Bool := isWord name.toList && !reserved.contains name

inductive Expr.Writable : Expr → Prop where
  | bool (pos : Position) (flag : Bool) : Writable (bool pos flag)
  | integer (pos : Position) {n : Nat} : n < integerLimit → Writable (integer pos n)
  | string (pos : Position) (text : String) : Writable (string pos text)
  | var (pos : Position) {name : String} : isOperand name = true → Writable (var pos name)
  | call (pos : Position) {function : String} {arguments : List Expr} :
      isOperand function = true → (∀ item ∈ arguments, Writable item) →
      Writable (call pos function arguments)
  | tuple (pos : Position) {items : List Expr} : (∀ item ∈ items, Writable item) →
      Writable (tuple pos items)
  | array (pos : Position) {items : List Expr} : (∀ item ∈ items, Writable item) →
      Writable (array pos items)
  | dict (pos : Position) {entries : List (Expr × Expr)} :
      (∀ entry ∈ entries, Writable entry.1) → (∀ entry ∈ entries, Writable entry.2) →
      Writable (dict pos entries)
  | variant (pos : Position) {inner : Expr} : Writable inner → Writable (variant pos inner)
  | annotated (pos : Position) {ty : Ty} {inner : Expr} : ty.KeysBasic → Writable inner →
      Writable (annotated pos ty inner)
  | choice (pos : Position) {alternatives : List Expr} : (∀ item ∈ alternatives, Writable item) →
      Writable (choice pos alternatives)
  | not (pos : Position) {operand : Expr} : Writable operand → Writable (not pos operand)
  | negate (pos : Position) {operand : Expr} : Writable operand → Writable (negate pos operand)
  | binary (pos : Position) (op : BinaryOp) {lhs rhs : Expr} : Writable lhs → Writable rhs →
      Writable (binary pos op lhs rhs)

def statementWords : List String := ["reply", "emit", "throw", "precondition"]

def Statement.Writable : Statement → Prop
  | assign _ name value =>
      isWord name.toList = true ∧ name ∉ statementWords ∧ value.Writable
  | reply _ arguments => ∀ item ∈ arguments, item.Writable
  | emit _ signal arguments => isDotted signal = true ∧ ∀ item ∈ arguments, item.Writable
  | throw _ error message => isDotted error = true ∧ ∀ text ∈ message, text.Writable

def Precondition.Writable (p : Precondition) : Prop :=
  (∀ error ∈ p.error, isDotted error = true) ∧ p.condition.Writable

def Trigger.Writable : Trigger → Prop
  | method name | property name => isDotted name = true
  | arbitrary => True

structure Transition.Writable (t : Transition) : Prop where
  source : isWord t.source.text.toList = true
  target : isWord t.target.text.toList = true
  trigger : t.trigger.Writable
  preconditions : ∀ p ∈ t.preconditions, p.Writable
  body : ∀ s ∈ t.body, s.Writable

structure DataVariable.Writable (d : DataVariable) : Prop where
  name : isWord d.name.toList = true
  ty : d.ty.KeysBasic
  initializer : d.initializer.Writable

structure Object.Writable (o : Object) : Prop where
  path : isWrittenPath o.path.toList = true
  names : ∀ name ∈ o.names, isDotted name = true
  implementing : o.interfaces ≠ []
  interfaces : ∀ i ∈ o.interfaces, isDotted i.text = true
  data : ∀ d ∈ o.data, d.Writable
  states : ∀ s ∈ o.states, isWord s.text.toList = true
  transitions : ∀ t ∈ o.transitions, t.Writable

def Reader.Part.Writable : Reader.Part → Prop
  | .data declared => ∀ d ∈ declared, d.Writable
  | .states names => ∀ s ∈ names, isWord s.text.toList = true
  | .transition t => t.Writable

theorem Style.parts_writable (style : Style) (o : Object) (writable : o.Writable) :
    ∀ p ∈ style.parts o, p.Writable := by
  intro p member
  cases p with
  | data declared =>
      intro d inPart
      refine writable.data d ?_
      rw [← style.data o]
      exact List.mem_flatMap.mpr ⟨_, member, inPart⟩
  | states names =>
      intro s inPart
      refine writable.states s ?_
      rw [← style.states o]
      exact List.mem_flatMap.mpr ⟨_, member, inPart⟩
  | transition t =>
      refine writable.transitions t ?_
      rw [← style.transitions o]
      exact List.mem_filterMap.mpr ⟨_, member, rfl⟩

/-! Programs without the places in their texts. -/

def nowhere : Position := ⟨0, 0⟩

namespace Expr

mutual
def bare : Expr → Expr
  | bool _ flag => bool nowhere flag
  | integer _ n => integer nowhere n
  | double _ x => double nowhere x
  | string _ text => string nowhere text
  | var _ name => var nowhere name
  | call _ function arguments => call nowhere function (bareList arguments)
  | tuple _ items => tuple nowhere (bareList items)
  | array _ items => array nowhere (bareList items)
  | dict _ entries => dict nowhere (bareEntries entries)
  | variant _ inner => variant nowhere inner.bare
  | annotated _ ty inner => annotated nowhere ty inner.bare
  | choice _ alternatives => choice nowhere (bareList alternatives)
  | not _ operand => not nowhere operand.bare
  | negate _ operand => negate nowhere operand.bare
  | binary _ op lhs rhs => binary nowhere op lhs.bare rhs.bare

def bareList : List Expr → List Expr
  | [] => []
  | item :: rest => item.bare :: bareList rest

def bareEntries : List (Expr × Expr) → List (Expr × Expr)
  | [] => []
  | (key, value) :: rest => (key.bare, value.bare) :: bareEntries rest
end

theorem bareList_eq (items : List Expr) : bareList items = items.map bare := by
  induction items with
  | nil => rfl
  | cons item rest ih => rw [bareList, ih, List.map_cons]

def bareEntry (entry : Expr × Expr) : Expr × Expr := (entry.1.bare, entry.2.bare)

theorem bareEntries_eq (entries : List (Expr × Expr)) :
    bareEntries entries = entries.map bareEntry := by
  induction entries with
  | nil => rfl
  | cons entry rest ih => rw [bareEntries, ih, List.map_cons, bareEntry]

end Expr

def Name.bare (name : Name) : Name := ⟨name.text, nowhere⟩

def Statement.bare : Statement → Statement
  | assign _ name value => assign nowhere name value.bare
  | reply _ arguments => reply nowhere (arguments.map Expr.bare)
  | emit _ signal arguments => emit nowhere signal (arguments.map Expr.bare)
  | throw _ error message => throw nowhere error (message.map Expr.bare)

def Precondition.bare (p : Precondition) : Precondition := ⟨p.error, p.condition.bare⟩

def Transition.bare (t : Transition) : Transition where
  source := t.source.bare
  target := t.target.bare
  trigger := t.trigger
  triggerPosition := nowhere
  preconditions := t.preconditions.map Precondition.bare
  body := t.body.map Statement.bare
  position := nowhere

def DataVariable.bare (d : DataVariable) : DataVariable :=
  ⟨d.name, d.ty, d.initializer.bare, nowhere⟩

def Object.bare (o : Object) : Object where
  path := o.path
  names := o.names
  interfaces := o.interfaces.map Name.bare
  data := o.data.map DataVariable.bare
  states := o.states.map Name.bare
  transitions := o.transitions.map Transition.bare
  position := nowhere

end SimBus.Surface
