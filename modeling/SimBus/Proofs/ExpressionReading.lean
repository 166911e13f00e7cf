import SimBus.Proofs.ReaderRules
/-!
Expressions read back. What is written for an expression at a level is read at that level
as the expression, whatever stands behind it that is no operator of the level. Operators
of one level are taken apart into the spine of their left operands.
-/

namespace SimBus.Surface

namespace Expr

theorem symbols_loose (level : Nat) (pos : Position) (op : BinaryOp) (lhs rhs : Expr)
    (loose : levelOf op < level) :
    (binary pos op lhs rhs).symbols level =
      enclosed .lparen .rparen ((binary pos op lhs rhs).symbols 0) := by
  simp [symbols, loose]

theorem symbols_tight (level : Nat) (pos : Position) (op : BinaryOp) (lhs rhs : Expr)
    (tight : level ≤ levelOf op) :
    (binary pos op lhs rhs).symbols level =
      lhs.symbols (levelOf op) ++ .punct (markOf op) :: rhs.symbols (levelOf op + 1) := by
  simp [symbols, Nat.not_lt.mpr tight]

/-- The first operand of the operators of one level, and each of the operators with its
right operand. -/
def spine (level : Nat) : Expr → Expr × List (BinaryOp × Expr)
  | binary pos op lhs rhs =>
      if levelOf op = level then ((spine level lhs).1, (spine level lhs).2 ++ [(op, rhs)])
      else (binary pos op lhs rhs, [])
  | e => (e, [])

def operandSymbols (level : Nat) (step : BinaryOp × Expr) : List Symbol :=
  .punct (markOf step.1) :: step.2.symbols (level + 1)

def grouped (first : Expr) (steps : List (BinaryOp × Expr)) : Expr :=
  steps.foldl (fun lhs step => binary nowhere step.1 lhs step.2.bare) first

theorem symbols_succ (level : Nat) (e : Expr) (whole : spine level e = (e, [])) :
    e.symbols level = e.symbols (level + 1) := by
  cases e with
  | binary pos op lhs rhs =>
      by_cases here : levelOf op = level
      · simp [spine, here] at whole
      · by_cases loose : levelOf op < level
        · rw [symbols_loose level pos op lhs rhs loose,
            symbols_loose (level + 1) pos op lhs rhs (by omega)]
        · rw [symbols_tight level pos op lhs rhs (by omega),
            symbols_tight (level + 1) pos op lhs rhs (by omega)]
  | _ => simp [symbols]

theorem spine_symbols (level : Nat) (e : Expr) :
    e.symbols level =
      (spine level e).1.symbols (level + 1) ++
        (spine level e).2.flatMap (operandSymbols level) := by
  fun_induction spine level e with
  | case1 pos op lhs rhs here ih =>
      subst here
      rw [symbols_tight _ pos op lhs rhs (Nat.le_refl _), ih]
      simp [operandSymbols]
  | case2 pos op lhs rhs elsewhere =>
      -- An operator of another level is an operand as a whole.
      simpa using symbols_succ level _ (by simp [spine, elsewhere])
  | case3 e other =>
      have whole : spine level e = (e, []) := by
        cases e with
        | binary pos op lhs rhs => exact absurd rfl (other pos op lhs rhs)
        | _ => rfl
      simpa using symbols_succ level e whole

theorem spine_bare (level : Nat) (e : Expr) :
    e.bare = grouped (spine level e).1.bare (spine level e).2 := by
  fun_induction spine level e with
  | case1 pos op lhs rhs here ih =>
      rw [bare, ih, grouped, grouped, List.foldl_append]
      rfl
  | case2 pos op lhs rhs elsewhere => rfl
  | case3 e other => rfl

theorem spine_writable (level : Nat) (e : Expr) (writable : e.Writable) :
    (spine level e).1.Writable ∧
      ∀ step ∈ (spine level e).2, levelOf step.1 = level ∧ step.2.Writable := by
  fun_induction spine level e with
  | case1 pos op lhs rhs here ih =>
      cases writable with
      | binary _ _ left right =>
          obtain ⟨first, steps⟩ := ih left
          refine ⟨first, fun step member => ?_⟩
          rcases List.mem_append.mp member with before | last
          · exact steps step before
          · rw [List.mem_singleton.mp last]
            exact ⟨here, right⟩
  | case2 pos op lhs rhs elsewhere => exact ⟨writable, nofun⟩
  | case3 e other => exact ⟨writable, nofun⟩

theorem symbols_open (level : Nat) (e : Expr) (writable : e.Writable) :
    ∃ s rest token, e.symbols level = s :: rest ∧ s.token? = some token ∧ Reader.Opening token := by
  induction writable generalizing level with
  | bool | integer | string | var | call | choice =>
      exact ⟨_, _, _, rfl, rfl, fun _ same => by cases same⟩
  | tuple | array | dict | variant | annotated | not | negate =>
      exact ⟨_, _, _, rfl, rfl, fun _ same => Token.punct.inj same ▸ rfl⟩
  | binary pos op _ _ left right =>
      by_cases loose : levelOf op < level
      · rw [symbols_loose level pos op _ _ loose]
        exact ⟨_, _, _, rfl, rfl, fun _ same => Token.punct.inj same ▸ rfl⟩
      · obtain ⟨s, rest, token, first, made, opening⟩ := left (levelOf op)
        rw [symbols_tight level pos op _ _ (Nat.not_lt.mp loose), first]
        exact ⟨s, _, token, rfl, made, opening⟩

theorem symbols_begin (level : Nat) (e : Expr) (rest : List Symbol) (writable : e.Writable) :
    Reader.Begins (e.symbols level ++ rest) Reader.Opening := by
  obtain ⟨s, more, token, symbols, made, opening⟩ := symbols_open level e writable
  exact ⟨token, by rw [symbols]; exact made, opening⟩

end Expr

namespace Reader

/-! Operators. -/

theorem reads_eatOperator (level : Level) (mark : Punct) (op : BinaryOp) (rest : List Symbol)
    (known : level mark = some op) :
    Reads (eatOperator level) (.punct mark :: rest) rest (· = some op) := by
  refine .peeked _ rfl fun lexeme made behind => ?_
  simp only [made, known]
  exact (reads_take lexeme _ rest behind).bind fun _ _ => .pure _ _ _ rfl

theorem reads_eatOperator_other (level : Level) (symbols : List Symbol)
    (other : Begins symbols fun token => ∀ mark, token = .punct mark → level mark = none) :
    Reads (eatOperator level) symbols symbols (· = none) := by
  obtain ⟨token, next, unknown⟩ := other
  refine .peeked token next fun lexeme made _ => ?_
  rw [made]
  cases token with
  | punct mark =>
      simp only [unknown mark rfl]
      exact .pure _ _ _ rfl
  | _ => exact .pure _ _ _ rfl

theorem Stops.mono {level tighter : Nat} {symbols : List Symbol} (stops : Stops level symbols)
    (further : level ≤ tighter) : Stops tighter symbols :=
  Begins.mono stops fun _ loose mark same =>
    ⟨(loose mark same).1, fun l member =>
      (loose mark same).2 l (List.drop_subset_drop_left _ further member)⟩

theorem levels_mark (op : BinaryOp) :
    ∃ l, levels.drop (levelOf op) = l :: levels.drop (levelOf op + 1) ∧ l (markOf op) = some op ∧
      markOf op ≠ .lparen ∧ ∀ other ∈ levels.drop (levelOf op + 1), other (markOf op) = none := by
  cases op <;> exact ⟨_, rfl, rfl, by decide, by decide⟩

theorem stops_operator (op : BinaryOp) (rest : List Symbol) :
    Stops (levelOf op + 1) (.punct (markOf op) :: rest) := by
  obtain ⟨l, -, -, apart, loose⟩ := levels_mark op
  exact stops_mark _ _ rest apart loose

theorem stops_steps (level : Nat) (steps : List (BinaryOp × Expr)) (rest : List Symbol)
    (known : ∀ step ∈ steps, levelOf step.1 = level) (stops : Stops (level + 1) rest) :
    Stops (level + 1) (steps.flatMap (Expr.operandSymbols level) ++ rest) := by
  cases steps with
  | nil => exact stops
  | cons next more =>
      obtain rfl := known next List.mem_cons_self
      exact stops_operator next.1 _

/-- The operators of a level are read one after the other, each with its right operand. -/
theorem reads_operatorChain (level : Nat) (l : Level) (operand : Reader Expr)
    (steps : List (BinaryOp × Expr)) (rest : List Symbol) (bound : Nat) (first : Expr)
    (known : ∀ step ∈ steps, levelOf step.1 = level ∧ l (markOf step.1) = some step.1)
    (operands : ∀ step ∈ steps, ∀ more, Stops (level + 1) more →
      Reads operand (step.2.symbols (level + 1) ++ more) more (·.bare = step.2.bare))
    (stops : Stops (level + 1) rest)
    (ended : Begins rest fun token => ∀ mark, token = .punct mark → l mark = none)
    (enough : steps.length ≤ bound) :
    Reads (operatorChain l operand bound first)
      (steps.flatMap (Expr.operandSymbols level) ++ rest) rest
      (·.bare = Expr.grouped first.bare steps) := by
  induction steps generalizing bound first with
  | nil =>
      cases bound with
      | zero => exact .pure _ _ _ rfl
      | succ bound =>
          exact (reads_eatOperator_other l rest ended).bind fun _ none => none ▸ .pure _ _ _ rfl
  | cons step steps ih =>
      obtain ⟨bound, rfl⟩ : ∃ less, bound = less + 1 := ⟨bound - 1, by simp at enough; omega⟩
      obtain ⟨⟨-, mark⟩, knownRest⟩ := List.forall_mem_cons.mp known
      obtain ⟨operand, operandsRest⟩ := List.forall_mem_cons.mp operands
      have follows :=
        stops_steps level steps rest (fun step member => (knownRest step member).1) stops
      rw [List.flatMap_cons, List.append_assoc]
      refine (reads_eatOperator l _ step.1 _ mark).bind ?_
      rintro _ rfl
      refine (operand _ follows).bind fun rhs same => ?_
      refine (ih bound _ knownRest operandsRest (Nat.le_of_succ_le_succ enough)).mono
        fun found read => ?_
      rw [read, Expr.bare, same]
      rfl

/-! Operands. -/

def isUnary : Token → Bool
  | .punct .bang | .punct .minus | .punct .at => true
  | _ => false

section Operands

variable (unary : Reader Expr) (rest : List Symbol)

theorem reads_unaryStep (symbols : List Symbol) (result : Expr → Prop) (token : Token)
    (next : nextToken symbols = some token) (plain : isUnary token = false)
    (reads : Reads (primary unary) symbols rest result) :
    Reads (unaryStep unary) symbols rest result := by
  refine .peeked token next fun lexeme made _ => ?_
  simp only [made]
  split
  · cases plain
  · cases plain
  · cases plain
  · exact reads

theorem primary_integer (n : Nat) :
    Reads (primary unary) (.integer n :: rest) rest (·.bare = .integer nowhere n) := by
  refine .peeked _ rfl fun lexeme made behind => ?_
  refine (reads_take lexeme _ rest behind).bind fun _ _ => ?_
  simp only [made]
  exact .pure _ _ _ rfl

theorem primary_string (text : String) :
    Reads (primary unary) (.string text :: rest) rest (·.bare = .string nowhere text) := by
  refine .peeked _ rfl fun lexeme made behind => ?_
  refine (reads_take lexeme _ rest behind).bind fun _ _ => ?_
  simp only [made]
  exact .pure _ _ _ rfl

theorem primary_bool (flag : Bool) :
    Reads (primary unary) (.word (if flag then "true" else "false") :: rest) rest
      (·.bare = .bool nowhere flag) := by
  refine .peeked _ rfl fun lexeme made behind => ?_
  refine (reads_take lexeme _ rest behind).bind fun _ _ => ?_
  simp only [made]
  cases flag <;> exact .pure _ _ _ rfl

theorem isOperand_cases (name : String) (operand : isOperand name = true) :
    isWord name.toList = true ∧ name ≠ "true" ∧ name ≠ "false" ∧ name ≠ "choose" := by
  simpa [isOperand, reserved] using operand

theorem primary_variable (name : String) (operand : isOperand name = true)
    (apart : Begins rest (· ≠ .punct .lparen)) :
    Reads (primary unary) (.word name :: rest) rest (·.bare = .var nowhere name) := by
  obtain ⟨-, notTrue, notFalse, notChoose⟩ := isOperand_cases name operand
  refine .peeked _ rfl fun lexeme made behind => ?_
  refine (reads_take lexeme _ rest behind).bind fun _ _ => ?_
  simp only [made, notTrue, notFalse, notChoose, ↓reduceIte]
  exact .whenFalse (reads_nextIs_other .lparen rest apart) (.pure _ _ _ rfl)

theorem unary_not (symbols : List Symbol) (meaning : Expr)
    (reads : Reads unary (symbols ++ rest) rest (·.bare = meaning)) :
    Reads (unaryStep unary) (.punct .bang :: (symbols ++ rest)) rest
      (·.bare = .not nowhere meaning) := by
  refine .peeked _ rfl fun lexeme made behind => ?_
  simp only [made]
  refine (reads_take lexeme _ _ behind).bind fun _ _ => ?_
  exact reads.bind fun operand same => .pure _ _ _ (by rw [Expr.bare, same])

theorem unary_negate (symbols : List Symbol) (meaning : Expr)
    (reads : Reads unary (symbols ++ rest) rest (·.bare = meaning)) :
    Reads (unaryStep unary) (.punct .minus :: (symbols ++ rest)) rest
      (·.bare = .negate nowhere meaning) := by
  refine .peeked _ rfl fun lexeme made behind => ?_
  simp only [made]
  refine (reads_take lexeme _ _ behind).bind fun _ _ => ?_
  exact reads.bind fun operand same => .pure _ _ _ (by rw [Expr.bare, same])

theorem unary_annotated (ty : Ty) (symbols : List Symbol) (meaning : Expr)
    (reads : Reads unary (symbols ++ rest) rest (·.bare = meaning)) :
    Reads (unaryStep unary) (.punct .at :: .type ty :: (symbols ++ rest)) rest
      (·.bare = .annotated nowhere ty meaning) := by
  refine .peeked _ rfl fun lexeme made behind => ?_
  simp only [made]
  refine (reads_take lexeme _ _ behind).bind fun _ _ => ?_
  refine (reads_type ty _).bind ?_
  rintro _ rfl
  exact reads.bind fun operand same => .pure _ _ _ (by rw [Expr.bare, same])

variable {items : List Expr}
  (all : ∀ x ∈ items, ReadsItem (operation unary levels) (Expr.symbols 0) Expr.bare Expr.bare x)

include all

theorem primary_call (name : String) (operand : isOperand name = true) :
    Reads (primary unary)
      (.word name :: (argumentSymbols (items.map (Expr.symbols 0)) ++ rest)) rest
      (·.bare = .call nowhere name (items.map Expr.bare)) := by
  obtain ⟨-, notTrue, notFalse, notChoose⟩ := isOperand_cases name operand
  refine .peeked _ rfl fun lexeme made behind => ?_
  refine (reads_take lexeme _ _ behind).bind fun _ _ => ?_
  simp only [made, notTrue, notFalse, notChoose, ↓reduceIte]
  refine .whenTrue (reads_nextIs .lparen _) ?_
  refine (reads_argumentList items rest all).bind fun found same => .pure _ _ _ ?_
  rw [Expr.bare, Expr.bareList_eq, same]

theorem primary_choice :
    Reads (primary unary) (.word "choose" :: (argumentSymbols (items.map (Expr.symbols 0)) ++ rest))
      rest (·.bare = .choice nowhere (items.map Expr.bare)) := by
  refine .peeked _ rfl fun lexeme made behind => ?_
  refine (reads_take lexeme _ _ behind).bind fun _ _ => ?_
  simp only [made, String.reduceEq, ↓reduceIte]
  refine (reads_argumentList items rest all).bind fun found same => .pure _ _ _ ?_
  rw [Expr.bare, Expr.bareList_eq, same]

theorem primary_array :
    Reads (primary unary)
      (enclosed .lbracket .rbracket (commaSeparated (items.map (Expr.symbols 0))) ++ rest) rest
      (·.bare = .array nowhere (items.map Expr.bare)) := by
  rw [enclosed, List.cons_append, List.append_assoc, List.singleton_append]
  refine .peeked _ rfl fun lexeme made behind => ?_
  refine (reads_take lexeme _ _ behind).bind fun _ _ => ?_
  simp only [made]
  refine (reads_remaining _).bind fun bound enough => ?_
  have long := Nat.le_trans (length_le_commaSeparated items .rbracket rest) enough
  refine (reads_commaList .rbracket rfl items bound rest all long).bind fun found same =>
    .pure _ _ _ ?_
  rw [Expr.bare, Expr.bareList_eq, same]

theorem primary_tuple :
    Reads (primary unary) (tupleSymbols (items.map (Expr.symbols 0)) ++ rest) rest
      (·.bare = .tuple nowhere (items.map Expr.bare)) := by
  rw [tupleSymbols, enclosed, List.cons_append, List.append_assoc, List.singleton_append]
  refine .peeked _ rfl fun lexeme made behind => ?_
  refine (reads_take lexeme _ _ behind).bind fun _ _ => ?_
  simp only [made]
  cases items with
  | nil => exact .whenTrue (reads_eat .rparen rest) (.pure _ _ _ rfl)
  | cons x others =>
      obtain ⟨first, more⟩ := List.forall_mem_cons.mp all
      -- Behind the first item there is a comma, also if it is the only one.
      have symbols : commaSeparated ((x :: others).map (Expr.symbols 0)) ++
            (if ((x :: others).map (Expr.symbols 0)).length = 1 then [.punct .comma] else []) ++
            .punct .rparen :: rest =
          x.symbols 0 ++ .punct .comma ::
            (commaSeparated (others.map (Expr.symbols 0)) ++ .punct .rparen :: rest) := by
        cases others with
        | nil => simp [commaSeparated]
        | cons y others => simp [commaSeparated]
      rw [symbols]
      refine .whenFalse (reads_eat_other .rparen _ ((first.opens _).other .rparen rfl)) ?_
      refine (first.reads _ (stops_comma _)).bind fun a same => ?_
      refine .whenFalse (reads_eat_other .rparen _ (begins_mark _ (by decide))) ?_
      refine (reads_expect .comma _).bind fun _ _ => (reads_remaining _).bind fun bound enough => ?_
      have long := Nat.le_trans (length_le_commaSeparated others .rparen rest) enough
      refine (reads_commaList .rparen rfl others bound rest more long).bind fun found read => ?_
      exact .pure _ _ _
        (by rw [Expr.bare, Expr.bareList_eq, List.map_cons, same, read, List.map_cons])

omit all

theorem primary_group {x : Expr}
    (reads : ReadsItem (operation unary levels) (Expr.symbols 0) Expr.bare Expr.bare x) :
    Reads (primary unary) (enclosed .lparen .rparen (x.symbols 0) ++ rest) rest
      (·.bare = x.bare) := by
  rw [enclosed, List.cons_append, List.append_assoc, List.singleton_append]
  refine .peeked _ rfl fun lexeme made behind => ?_
  refine (reads_take lexeme _ _ behind).bind fun _ _ => ?_
  simp only [made]
  refine .whenFalse (reads_eat_other .rparen _ ((reads.opens _).other .rparen rfl)) ?_
  refine (reads.reads _ (closesItems_cases .rparen rfl rest).1).bind fun a same => ?_
  exact .whenTrue (reads_eat .rparen rest) (.pure _ _ _ same)

theorem primary_dict {entries : List (Expr × Expr)}
    (all : ∀ entry ∈ entries, ReadsItem (dictEntry (operation unary levels)) Expr.entrySymbols
      Expr.bareEntry Expr.bareEntry entry) :
    Reads (primary unary)
      (enclosed .lbrace .rbrace (commaSeparated (entries.map Expr.entrySymbols)) ++ rest) rest
      (·.bare = .dict nowhere (entries.map Expr.bareEntry)) := by
  rw [enclosed, List.cons_append, List.append_assoc, List.singleton_append]
  refine .peeked _ rfl fun lexeme made behind => ?_
  refine (reads_take lexeme _ _ behind).bind fun _ _ => ?_
  simp only [made]
  refine (reads_remaining _).bind fun bound enough => ?_
  have long := Nat.le_trans (length_le_commaSeparated entries .rbrace rest) enough
  refine (reads_commaList .rbrace rfl entries bound rest all long).bind fun found same =>
    .pure _ _ _ ?_
  rw [Expr.bare, Expr.bareEntries_eq, same]

theorem primary_variant (symbols : List Symbol) (meaning : Expr)
    (reads : ∀ rest, Stops additiveLevel rest →
      Reads (operation unary additiveLevels) (symbols ++ rest) rest (·.bare = meaning)) :
    Reads (primary unary) (enclosed .lt .gt symbols ++ rest) rest
      (·.bare = .variant nowhere meaning) := by
  rw [enclosed, List.cons_append, List.append_assoc, List.singleton_append]
  refine .peeked _ rfl fun lexeme made behind => ?_
  refine (reads_take lexeme _ _ behind).bind fun _ _ => ?_
  simp only [made]
  refine (reads _ (stops_mark _ .gt rest (by decide) (by decide))).bind fun inner same => ?_
  exact (reads_expect .gt rest).bind fun _ _ => .pure _ _ _ (by rw [Expr.bare, same])

end Operands

/-- The expression is read at the level, with at most that many symbols. -/
def ReadsAt (bound level : Nat) (e : Expr) : Prop :=
  ∀ rest, Stops level rest →
    Reads (operation (unary bound) (levels.drop level)) (e.symbols level ++ rest) rest
      (·.bare = e.bare)

theorem reads_looser (bound level : Nat) (binary : level < unaryLevel)
    (tighter : ∀ e : Expr, e.Writable → (e.symbols (level + 1)).length ≤ bound →
      ReadsAt bound (level + 1) e)
    (e : Expr) (writable : e.Writable) (size : (e.symbols level).length ≤ bound) :
    ReadsAt bound level e := by
  intro rest stops
  obtain ⟨firstWritable, steps⟩ := Expr.spine_writable level e writable
  have symbols := Expr.spine_symbols level e
  have sizes := congrArg List.length symbols
  rw [List.length_append] at sizes
  have split : levels.drop level = levels[level] :: levels.drop (level + 1) :=
    List.drop_eq_getElem_cons binary
  have known : ∀ step ∈ (Expr.spine level e).2,
      levelOf step.1 = level ∧ levels[level] (markOf step.1) = some step.1 := by
    intro step member
    obtain ⟨here, -⟩ := steps step member
    obtain ⟨l, own, mark, -⟩ := levels_mark step.1
    rw [here, split] at own
    exact ⟨here, (List.cons.inj own).1 ▸ mark⟩
  -- The right operands are parts of the expression, and written one level tighter.
  have operands : ∀ step ∈ (Expr.spine level e).2, ∀ more, Stops (level + 1) more →
      Reads (operation (unary bound) (levels.drop (level + 1)))
        (step.2.symbols (level + 1) ++ more) more (·.bare = step.2.bare) := by
    intro step member
    have shorter := length_flatMap_le (Expr.operandSymbols level) _ step member
    rw [Expr.operandSymbols, List.length_cons] at shorter
    exact tighter step.2 (steps step member).2 (by omega)
  have ended : Begins rest fun token => ∀ mark, token = .punct mark → levels[level] mark = none :=
    Begins.mono stops fun _ loose mark same => (loose mark same).2 _ (split ▸ List.mem_cons_self)
  have follows := stops_steps level _ rest (fun step member => (steps step member).1)
    (stops.mono (Nat.le_succ level))
  rw [symbols, List.append_assoc, split]
  refine (tighter _ firstWritable (by omega) _ follows).bind fun first same => ?_
  refine (reads_remaining _).bind fun enough long => ?_
  refine (reads_operatorChain level _ _ _ rest enough first known operands
    (stops.mono (Nat.le_succ level)) ended ?_).mono fun found read => ?_
  · have shorter := length_le_flatMap (Expr.operandSymbols level) (Expr.spine level e).2
      (by simp [Expr.operandSymbols])
    rw [List.length_append] at long
    omega
  · rw [read, same, Expr.spine_bare level e]

section Nested

variable (bound : Nat)
  (inner : ∀ (e : Expr) (level : Nat), e.Writable → level ≤ unaryLevel →
    (e.symbols level).length ≤ bound → ReadsAt bound level e)

include inner

theorem readsItem (e : Expr) (writable : e.Writable) (size : (e.symbols 0).length ≤ bound) :
    ReadsItem (operation (unary bound) levels) (Expr.symbols 0) Expr.bare Expr.bare e where
  reads := inner e 0 writable (Nat.zero_le _) size
  opens := fun rest => Expr.symbols_begin 0 e rest writable

theorem readsItems (items : List Expr) (writable : ∀ item ∈ items, item.Writable)
    (size : (commaSeparated (items.map (Expr.symbols 0))).length ≤ bound) :
    ∀ x ∈ items,
      ReadsItem (operation (unary bound) levels) (Expr.symbols 0) Expr.bare Expr.bare x :=
  fun x member => readsItem bound inner x (writable x member)
    (Nat.le_trans (commaSeparated_member _ _ (List.mem_map_of_mem member)) size)

theorem readsEntries (entries : List (Expr × Expr)) (keys : ∀ entry ∈ entries, entry.1.Writable)
    (values : ∀ entry ∈ entries, entry.2.Writable)
    (size : (commaSeparated (entries.map Expr.entrySymbols)).length ≤ bound) :
    ∀ entry ∈ entries, ReadsItem (dictEntry (operation (unary bound) levels)) Expr.entrySymbols
      Expr.bareEntry Expr.bareEntry entry := by
  intro entry member
  have shorter := Nat.le_trans (commaSeparated_member _ _ (List.mem_map_of_mem member)) size
  rw [Expr.entrySymbols, List.length_append, List.length_cons] at shorter
  have key := readsItem bound inner entry.1 (keys entry member) (by omega)
  have value := readsItem bound inner entry.2 (values entry member) (by omega)
  constructor
  · intro rest stops
    rw [Expr.entrySymbols, List.append_assoc, List.cons_append]
    refine (key.reads _ (stops_mark 0 .colon _ (by decide) (by decide))).bind fun k sameKey => ?_
    refine (reads_expect .colon _).bind fun _ _ => ?_
    refine (value.reads rest stops).bind fun v sameValue => .pure _ _ _ ?_
    rw [Expr.bareEntry, sameKey, sameValue, Expr.bareEntry]
  · intro rest
    rw [Expr.entrySymbols, List.append_assoc]
    exact key.opens _

/-- An operand, in which the operands have one symbol less at least. -/
theorem reads_operand (e : Expr) (writable : e.Writable)
    (size : (e.symbols unaryLevel).length ≤ bound + 1) : ReadsAt (bound + 1) unaryLevel e := by
  intro rest stops
  have operand (e : Expr) (writable : e.Writable)
      (size : (e.symbols unaryLevel).length ≤ bound) :
      Reads (unary bound) (e.symbols unaryLevel ++ rest) rest (·.bare = e.bare) :=
    inner e unaryLevel writable (Nat.le_refl _) size rest stops
  show Reads (unaryStep (unary bound)) _ _ _
  cases writable with
  | bool pos flag => exact reads_unaryStep _ _ _ _ _ rfl rfl (primary_bool _ rest flag)
  | integer pos inRange => exact reads_unaryStep _ _ _ _ _ rfl rfl (primary_integer _ rest _)
  | string pos text => exact reads_unaryStep _ _ _ _ _ rfl rfl (primary_string _ rest text)
  | var pos name =>
      have apart : Begins rest (· ≠ .punct .lparen) :=
        Begins.mono stops fun _ loose same => (loose .lparen same).1 rfl
      exact reads_unaryStep _ _ _ _ _ rfl rfl (primary_variable _ rest _ name apart)
  | @call pos function arguments name all =>
      simp only [Expr.symbols, Expr.symbolsOfList_eq, Expr.bare, Expr.bareList_eq] at size ⊢
      simp only [argumentSymbols, enclosed, List.length_cons, List.length_append] at size
      have items := readsItems bound inner arguments all (by omega)
      exact reads_unaryStep _ _ _ _ _ rfl rfl (primary_call _ rest items _ name)
  | @choice pos alternatives all =>
      simp only [Expr.symbols, Expr.symbolsOfList_eq, Expr.bare, Expr.bareList_eq] at size ⊢
      simp only [argumentSymbols, enclosed, List.length_cons, List.length_append] at size
      have items := readsItems bound inner alternatives all (by omega)
      exact reads_unaryStep _ _ _ _ _ rfl rfl (primary_choice _ rest items)
  | @tuple pos members all =>
      simp only [Expr.symbols, Expr.symbolsOfList_eq, Expr.bare, Expr.bareList_eq] at size ⊢
      simp only [tupleSymbols, enclosed, List.length_cons, List.length_append] at size
      have items := readsItems bound inner members all (by omega)
      exact reads_unaryStep _ _ _ _ _ rfl rfl (primary_tuple _ rest items)
  | @array pos members all =>
      simp only [Expr.symbols, Expr.symbolsOfList_eq, Expr.bare, Expr.bareList_eq] at size ⊢
      simp only [enclosed, List.length_cons, List.length_append] at size
      have items := readsItems bound inner members all (by omega)
      exact reads_unaryStep _ _ _ _ _ rfl rfl (primary_array _ rest items)
  | @dict pos entries keys values =>
      simp only [Expr.symbols, Expr.symbolsOfEntries_eq, Expr.bare, Expr.bareEntries_eq] at size ⊢
      simp only [enclosed, List.length_cons, List.length_append] at size
      have items := readsEntries bound inner entries keys values (by omega)
      exact reads_unaryStep _ _ _ _ _ rfl rfl (primary_dict _ rest items)
  | @variant pos content writable =>
      simp only [Expr.symbols, Expr.bare, enclosed, List.length_cons, List.length_append] at size ⊢
      have read := inner content additiveLevel writable (by decide) (by omega)
      exact reads_unaryStep _ _ _ _ _ rfl rfl (primary_variant _ rest _ _ read)
  | annotated pos basic writable =>
      simp only [Expr.symbols, Expr.bare, List.length_cons] at size ⊢
      exact unary_annotated _ rest _ _ _ (operand _ writable (by omega))
  | not pos writable =>
      simp only [Expr.symbols, Expr.bare, List.length_cons] at size ⊢
      exact unary_not _ rest _ _ (operand _ writable (by omega))
  | negate pos writable =>
      simp only [Expr.symbols, Expr.bare, List.length_cons] at size ⊢
      exact unary_negate _ rest _ _ (operand _ writable (by omega))
  | @binary pos op lhs rhs left right =>
      -- All binary operators are looser than the level of an operand, so there are brackets.
      have loose : levelOf op < unaryLevel := by cases op <;> decide
      rw [Expr.symbols_loose _ pos op lhs rhs loose] at size ⊢
      simp only [enclosed, List.length_cons, List.length_append] at size
      have read :=
        readsItem bound inner (.binary pos op lhs rhs) (.binary pos op left right) (by omega)
      exact reads_unaryStep _ _ _ _ _ rfl rfl (primary_group _ rest read)

end Nested

theorem reads_level (bound : Nat) (e : Expr) (level : Nat) (writable : e.Writable)
    (known : level ≤ unaryLevel) (size : (e.symbols level).length ≤ bound) :
    ReadsAt bound level e := by
  induction bound generalizing e level with
  | zero =>
      -- No expression is written with no symbols.
      obtain ⟨s, rest, token, symbols, -⟩ := Expr.symbols_open level e writable
      rw [symbols] at size
      cases size
  | succ bound inner =>
      -- From the unary operators down to the level that is asked for.
      obtain ⟨distance, sum⟩ := Nat.exists_eq_add_of_le known
      induction distance generalizing e level with
      | zero =>
          obtain rfl : unaryLevel = level := sum
          exact reads_operand bound inner e writable size
      | succ distance further =>
          refine reads_looser (bound + 1) level (by omega)
            (fun tighter tighterWritable smaller => ?_) e writable size
          exact further tighter (level + 1) tighterWritable (by omega) smaller (by omega)

theorem reads_expression (e : Expr) (rest : List Symbol) (writable : e.Writable)
    (stops : Stops 0 rest) :
    Reads expression (e.symbols 0 ++ rest) rest (·.bare = e.bare) := by
  refine (reads_remaining _).bind fun bound enough => ?_
  rw [List.length_append] at enough
  exact reads_level bound e 0 writable (Nat.zero_le _) (by omega) rest stops

end Reader

end SimBus.Surface
