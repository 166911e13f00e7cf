import SimBus.Proofs.ByteGrammar
/-!
Every rule of the grammar is scanned as it is read. Lists and nested expressions take a
character for every item and every level, so a scan that may take more rounds than there
are bytes in the text never runs out of them.
-/

namespace SimBus.Surface.Scanner

open Reader (Level levels additiveLevels Part)

variable {α : Type} {text : String} {rounds : Nat}

section

variable (enough : size text.toList < rounds)
include enough

/-! Lists. -/

theorem follows_argumentTail {item : Reader α} {item' : Scanner α} {bound : Nat}
    (single : Follows text none bound (fun _ => 1) item item') (count more : Nat)
    (fits : bound ≤ count) (fewer : bound < more) :
    Follows text none bound (fun _ => 0) (Reader.argumentTail item count)
      (argumentTail text rounds item' more) := by
  induction count generalizing bound more with
  | zero =>
      obtain ⟨more, rfl⟩ := Nat.exists_eq_add_one_of_ne_zero (Nat.ne_zero_of_lt fewer)
      -- Nothing is left, so there cannot have been an argument.
      refine .bindTaken single fun last took => ?_
      exact absurd (Nat.le_trans took fits) (Nat.not_succ_le_zero 0)
  | succ count ih =>
      obtain ⟨more, rfl⟩ := Nat.exists_eq_add_one_of_ne_zero (Nat.ne_zero_of_lt fewer)
      -- The first argument has taken something: one round less is enough for the others.
      refine .bindTaken single fun first took => ?_
      refine .bind (follows_eat enough .rparen _) fun closed =>
        .ite (fun _ => .pure _ rfl) fun _ => ?_
      refine .bind (follows_expect enough .comma _) fun _ => ?_
      refine .bind (follows_eat enough .rparen _) fun closed =>
        .ite (fun _ => .pure _ rfl) fun _ => ?_
      refine .bind (ih (single.shrink ?_) more ?_ ?_) fun others => .pure _ rfl
      all_goals omega

theorem follows_argumentList {item : Reader α} {item' : Scanner α} {bound : Nat}
    (single : Follows text none bound (fun _ => 1) item item') :
    Follows text none bound (fun _ => 1) (Reader.argumentList item)
      (argumentList text rounds item') := by
  refine .lead (follows_expect enough .lparen bound) fun _ => ?_
  refine .bind (follows_eat enough .rparen _) fun closed => .ite (fun _ => .pure _ rfl) fun _ => ?_
  refine .counting enough fun left fits within => ?_
  exact follows_argumentTail enough (single.shrink (by omega)) left rounds (Nat.le_refl left) within

theorem follows_commaList (close : Punct) {item : Reader α} {item' : Scanner α} {bound : Nat}
    (single : Follows text none bound (fun _ => 1) item item') (count more : Nat)
    (fits : bound ≤ count) (fewer : bound < more) :
    Follows text none bound (fun _ => 0) (Reader.commaList close item count)
      (commaList text rounds close item' more) := by
  induction count generalizing bound more with
  | zero =>
      obtain ⟨more, rfl⟩ := Nat.exists_eq_add_one_of_ne_zero (Nat.ne_zero_of_lt fewer)
      refine .bind (follows_eat enough close bound) fun closed =>
        .ite (fun _ => .pure _ rfl) fun _ => ?_
      refine .bindTaken (single.shrink (Nat.sub_le _ _)) fun last took => ?_
      omega
  | succ count ih =>
      obtain ⟨more, rfl⟩ := Nat.exists_eq_add_one_of_ne_zero (Nat.ne_zero_of_lt fewer)
      refine .bind (follows_eat enough close bound) fun closed =>
        .ite (fun _ => .pure _ rfl) fun _ => ?_
      refine .bindTaken (single.shrink (Nat.sub_le _ _)) fun first took => ?_
      refine .bind (follows_eat enough .comma _) fun goesOn => .ite (fun _ => ?_) fun _ => ?_
      · refine .bind (ih (single.shrink ?_) more ?_ ?_) fun others => .pure _ rfl
        all_goals omega
      · exact .bind (follows_expect enough close _) fun _ => .pure _ rfl

theorem follows_commasThen {β : Type} (close : Punct) {item : Reader α} {item' : Scanner α}
    {bound : Nat} {next : List α → Reader β} {next' : List α → Scanner β}
    (single : Follows text none bound (fun _ => 1) item item')
    (behind : ∀ items, Follows text none bound (fun _ => 0) (next items) (next' items)) :
    Follows text none bound (fun _ => 0)
      (Reader.remaining >>= fun left => Reader.commaList close item left >>= next)
      (commaList text rounds close item' rounds >>= next') := by
  refine .counting enough fun left fits within => ?_
  exact .bind
    (follows_commaList enough close (single.shrink fits) left rounds (Nat.le_refl left) within)
    fun items => (behind items).shrink fits

/-! Expressions. -/

theorem follows_eatOperator (level : Level) (bound : Nat) :
    Follows text none bound itemLeast (Reader.eatOperator level)
      (eatOperator text rounds level) := by
  rw [eatOperator, nextOperator, bind_assoc]
  refine .look enough fun token _ _ _ _ _ _ => ?_
  cases token with
  | punct mark =>
      simp only [pure_bind]
      cases level mark with
      | none => exact .pure none rfl
      | some op => exact .taking enough fun _ => .pure (some op) rfl
  | _ => exact .pure none rfl

/-- Operators are taken as long as there are some; a reader that has nothing left does not
even look for them. -/
theorem follows_operators (level : Level) {operand : Reader Expr} {operand' : Scanner Expr}
    {bound : Nat} (single : Follows text none bound (fun _ => 1) operand operand')
    (count more : Nat) (fits : bound ≤ count) (fewer : bound < more) (lhs : Expr) :
    Follows text none bound (fun _ => 0) (Reader.operatorChain level operand count lhs)
      (operators text rounds level operand' more lhs) := by
  induction count generalizing bound more lhs with
  | zero =>
      obtain ⟨more, rfl⟩ := Nat.exists_eq_add_one_of_ne_zero (Nat.ne_zero_of_lt fewer)
      -- Only the scanner looks for an operator. At the end of the text that changes nothing.
      have looks : Follows text none bound (fun _ => 0)
          (Reader.eatOperator level >>= fun _ => pure lhs)
          (operators text rounds level operand' (more + 1) lhs) := by
        refine .bindTaken (follows_eatOperator enough level bound) fun found took => ?_
        cases found with
        | none => exact .pure lhs rfl
        | some op => exact absurd (Nat.le_trans took fits) (Nat.not_succ_le_zero 0)
      refine looks.congr fun c left => ?_
      obtain ⟨rest, p⟩ := c
      obtain rfl := List.eq_nil_of_length_eq_zero (Nat.le_zero.mp (Nat.le_trans left fits))
      rfl
  | succ count ih =>
      obtain ⟨more, rfl⟩ := Nat.exists_eq_add_one_of_ne_zero (Nat.ne_zero_of_lt fewer)
      refine .bindTaken (follows_eatOperator enough level bound) fun found took => ?_
      cases found with
      | none => exact .pure lhs rfl
      | some op =>
          simp only [itemLeast] at took ⊢
          refine .bind (single.shrink (Nat.sub_le _ _)) fun rhs => ?_
          exact ih (single.shrink (by omega)) more (by omega) (by omega) _

theorem follows_operation {operand : Reader Expr} {operand' : Scanner Expr} {bound : Nat}
    (single : Follows text none bound (fun _ => 1) operand operand') (levels : List Level) :
    Follows text none bound (fun _ => 1) (Reader.operation operand levels)
      (operation text rounds operand' levels) := by
  induction levels with
  | nil => exact single
  | cons level tighter ih =>
      refine .lead ih fun lhs => .counting enough fun left fits within => ?_
      exact follows_operators enough level (ih.shrink (by omega)) left rounds
        (Nat.le_refl left) within lhs

theorem follows_group (start : Position) {item : Reader Expr} {item' : Scanner Expr} {bound : Nat}
    (single : Follows text none bound (fun _ => 1) item item') :
    Follows text none bound (fun _ => 0) (Reader.group start item)
      (group text rounds start item') := by
  refine .bind (follows_eat enough .rparen bound) fun closed =>
    .ite (fun _ => .pure _ rfl) fun _ => ?_
  refine .bind (single.shrink (Nat.sub_le _ _)) fun first => ?_
  refine .bind (follows_eat enough .rparen _) fun closed => .ite (fun _ => .pure _ rfl) fun _ => ?_
  refine .bind (follows_expect enough .comma _) fun _ => ?_
  exact follows_commasThen enough .rparen (single.shrink (by omega)) fun others => .pure _ rfl

theorem follows_dictEntry {item : Reader Expr} {item' : Scanner Expr} {bound : Nat}
    (single : Follows text none bound (fun _ => 1) item item') :
    Follows text none bound (fun _ => 1) (Reader.dictEntry item)
      (dictEntry text rounds item') := by
  refine .lead single fun key => .bind (follows_expect enough .colon _) fun _ => ?_
  exact .bind (single.shrink (by omega)) fun value => .pure _ rfl

theorem follows_primary {unary : Reader Expr} {unary' : Scanner Expr} {bound : Nat}
    (single : 0 < bound → Follows text none (bound - 1) (fun _ => 1) unary unary') :
    Follows text none bound (fun _ => 1) (Reader.primary unary) (primary text rounds unary') := by
  -- The token is taken in the same look, unlike everywhere else.
  rw [primary, bump, bind_assoc]
  refine .look enough fun token start offset after stop placed there => ?_
  simp only [bind_assoc, pure_bind, Follows.position placed]
  refine .going there fun took => ?_
  cases token with
  | integer | double | string => exact .pure _ rfl
  | ident name =>
      have item := follows_operation enough (single took) levels
      refine .ite (fun _ => .pure _ rfl) fun _ => .ite (fun _ => .pure _ rfl) fun _ => ?_
      refine .ite (fun _ => .bind (follows_argumentList enough item) fun _ => .pure _ rfl)
        fun _ => ?_
      refine .bind (follows_nextIs enough .lparen _) fun called =>
        .ite (fun _ => ?_) fun _ => .pure _ rfl
      exact .bind (follows_argumentList enough item) fun _ => .pure _ rfl
  | punct mark =>
      have item := follows_operation enough (single took) levels
      cases mark with
      | lparen => exact follows_group enough start item
      | lbracket => exact follows_commasThen enough .rbracket item fun items => .pure _ rfl
      | lbrace =>
          have entry := follows_dictEntry enough item
          exact follows_commasThen enough .rbrace entry fun entries => .pure _ rfl
      | lt =>
          refine .bind (follows_operation enough (single took) additiveLevels) fun inner => ?_
          exact .bind (follows_expect enough .gt _) fun _ => .pure _ rfl
      | _ => exact follows_unexpected placed stop _
  | endOfText => exact follows_unexpected placed stop _

theorem follows_unaryStep {unary : Reader Expr} {unary' : Scanner Expr} {bound : Nat}
    (single : 0 < bound → Follows text none (bound - 1) (fun _ => 1) unary unary') :
    Follows text none bound (fun _ => 1) (Reader.unaryStep unary)
      (unaryStep text rounds unary') := by
  refine .look enough fun token start offset after stop placed _ => ?_
  simp only [Follows.position placed, pure_bind]
  have plain := follows_primary enough single
  cases token with
  | punct mark =>
      cases mark with
      | bang | minus => exact .taking enough fun took => .bind (single took) fun _ => .pure _ rfl
      | «at» =>
          refine .taking enough fun took => .bind (follows_type enough _) fun ty => ?_
          exact .bind ((single took).shrink (Nat.sub_le _ _)) fun _ => .pure _ rfl
      | _ => exact plain.stay
  | _ => exact plain.stay

/-- Expressions are nested no deeper than there are characters. -/
theorem follows_unary (count depth : Nat) {bound : Nat} (fits : bound ≤ count)
    (shallow : bound < depth) :
    Follows text none bound (fun _ => 1) (Reader.unary count) (unary text rounds depth) := by
  induction count generalizing bound depth with
  | zero =>
      obtain ⟨depth, rfl⟩ := Nat.exists_eq_add_one_of_ne_zero (Nat.ne_zero_of_lt shallow)
      exact follows_unaryStep enough fun some =>
        absurd (Nat.lt_of_lt_of_le some fits) (Nat.not_lt_zero 0)
  | succ count ih =>
      obtain ⟨depth, rfl⟩ := Nat.exists_eq_add_one_of_ne_zero (Nat.ne_zero_of_lt shallow)
      exact follows_unaryStep enough fun some => ih depth (by omega) (by omega)

theorem follows_expression (bound : Nat) :
    Follows text none bound (fun _ => 1) Reader.expression (expression text rounds) := by
  refine .counting enough fun left _ within => ?_
  exact follows_operation enough (follows_unary enough left rounds (Nat.le_refl left) within) levels

/-! Transitions. -/

theorem follows_arguments (bound : Nat) :
    Follows text none bound (fun _ => 1) (Reader.argumentList Reader.expression)
      (argumentList text rounds (expression text rounds)) :=
  follows_argumentList enough (follows_expression enough bound)

theorem follows_statement (bound : Nat) :
    Follows text none bound (fun _ => 1) Reader.statement (statement text rounds) := by
  have ended (parsed : Statement) (bound : Nat) : Follows text none bound (fun _ => 0)
      (Reader.expect .semicolon >>= fun _ => pure parsed)
      (expect text rounds .semicolon >>= fun _ => pure parsed) :=
    .bind (follows_expect enough .semicolon bound) fun _ => .pure _ rfl
  refine .look enough fun token start offset after stop placed _ => ?_
  simp only [Follows.position placed, pure_bind]
  cases token with
  | ident word =>
      by_cases reply : word = "reply"
      · subst reply
        exact .taking enough fun _ => .bind (follows_arguments enough _) fun _ => ended _ _
      by_cases emit : word = "emit"
      · subst emit
        refine .taking enough fun _ => .bind (follows_dottedName enough _ _) fun signal => ?_
        exact .bind (follows_arguments enough _) fun _ => ended _ _
      by_cases throws : word = "throw"
      · subst throws
        refine .taking enough fun _ => .bind (follows_dottedName enough _ _) fun error => ?_
        refine .bind (follows_nextIs enough .semicolon _) fun bare => ?_
        refine .ite (fun _ => ended _ _) fun _ => ?_
        exact .bind (follows_expression enough _) fun _ => ended _ _
      -- Any other word is a variable that is assigned to.
      simp only
      refine .taking enough fun _ => .bind (follows_expect enough .eq _) fun _ => ?_
      exact .bind (follows_expression enough _) fun _ => ended _ _
  | _ => exact .lead (follows_unexpected placed stop _) fun parsed => ended _ _

theorem follows_precondition (bound : Nat) :
    Follows text none bound (fun _ => 0) Reader.precondition (precondition text rounds) := by
  have braced (error : Option String) (bound : Nat) : Follows text none bound (fun _ => 0)
      (Reader.expect .lbrace >>= fun _ => Reader.expression >>= fun condition =>
        Reader.expect .rbrace >>= fun _ => pure (⟨error, condition⟩ : Precondition))
      (expect text rounds .lbrace >>= fun _ => expression text rounds >>= fun condition =>
        expect text rounds .rbrace >>= fun _ => pure ⟨error, condition⟩) := by
    refine .bind (follows_expect enough .lbrace _) fun _ => ?_
    refine .bind (follows_expression enough _) fun condition => ?_
    exact .bind (follows_expect enough .rbrace _) fun _ => .pure _ rfl
  rw [Reader.precondition, precondition]
  simp only [pure_bind]
  refine .bind (follows_eatWord enough _ bound) fun named => .ite (fun _ => ?_) fun _ => braced _ _
  exact .bind (follows_dottedName enough _ _) fun error => braced _ _

theorem follows_route (bound : Nat) :
    Follows text none bound (fun _ => 0) Reader.route (route text rounds) := by
  refine .bind (follows_eatWord enough _ bound) fun inside => .ite (fun _ => ?_) fun _ => ?_
  · exact .bind (follows_name enough _ _) fun state => .pure _ rfl
  · refine .bind (follows_expectWord enough _ _) fun _ => ?_
    refine .bind (follows_name enough _ _) fun source => ?_
    refine .bind (follows_expectWord enough _ _) fun _ => ?_
    exact .bind (follows_name enough _ _) fun target => .pure _ rfl

theorem follows_trigger (bound : Nat) :
    Follows text none bound (fun _ => 0) Reader.trigger (trigger text rounds) := by
  refine .look enough fun token start offset after stop placed _ => ?_
  simp only [Follows.position placed, pure_bind]
  by_cases method : token = .ident "method"
  · subst method
    exact .taking enough fun _ => .bind (follows_dottedName enough _ _) fun _ => .pure _ rfl
  by_cases property : token = .ident "property"
  · subst property
    exact .taking enough fun _ => .bind (follows_dottedName enough _ _) fun _ => .pure _ rfl
  by_cases arbitrary : token = .ident "arbitrary"
  · subst arbitrary
    exact .taking enough fun _ => .pure _ rfl
  simp only
  exact follows_unexpected placed stop _

theorem follows_transition (bound : Nat) :
    Follows text none bound (fun _ => 1) Reader.transition (transition text rounds) := by
  refine .lead (follows_expectWord enough _ bound) fun start => ?_
  refine .bind (follows_route enough _) fun ends =>
    .bind (follows_expectWord enough _ _) fun _ => ?_
  refine .bind (follows_trigger enough _) fun trigger =>
    .bind (follows_expect enough .lbrace _) fun _ => ?_
  refine follows_itemsThen enough (follows_item (follows_eatWord enough _ _) ?_)
    fun preconditions => ?_
  · exact .bind (follows_precondition enough _) fun _ => .pure _ rfl
  · exact follows_itemsThen enough
      (follows_unlessClosed enough .rbrace (follows_statement enough _)) fun body => .pure _ rfl

/-! Objects. -/

theorem follows_dataVariable (bound : Nat) :
    Follows text none bound (fun _ => 1) Reader.dataVariable (dataVariable text rounds) := by
  refine .lead (follows_name enough _ bound) fun declared => ?_
  refine .bind (follows_expect enough .colon _) fun _ => .bind (follows_type enough _) fun ty => ?_
  refine .bind (follows_expect enough .eq _) fun _ => ?_
  refine .bind (follows_expression enough _) fun initializer => ?_
  exact .bind (follows_expect enough .semicolon _) fun _ => .pure _ rfl

theorem follows_block {item : Reader α} {item' : Scanner α} {bound : Nat}
    (single : Follows text none bound (fun _ => 1) item item') :
    Follows text none bound (fun _ => 0) (Reader.block item) (block text rounds item') := by
  refine .bind (follows_expect enough .lbrace bound) fun _ => ?_
  exact follows_items enough (follows_unlessClosed enough .rbrace (single.shrink (Nat.sub_le _ _)))

theorem follows_state (bound : Nat) :
    Follows text none bound (fun _ => 1) Reader.state (state text rounds) :=
  .lead (follows_name enough _ bound) fun _ =>
    .bind (follows_expect enough .semicolon _) fun _ => .pure _ rfl

theorem follows_part (bound : Nat) :
    Follows text none bound itemLeast Reader.part (part text rounds) := by
  refine .look enough fun token start offset after stop placed _ => ?_
  by_cases closed : token = .punct .rbrace
  · subst closed
    exact .taking enough fun _ => .pure _ rfl
  by_cases data : token = .ident "data"
  · subst data
    refine .taking enough fun _ => ?_
    exact .bindTaken (follows_block enough (follows_dataVariable enough _)) fun _ _ => .pure _ rfl
  by_cases states : token = .ident "states"
  · subst states
    refine .taking enough fun _ => ?_
    exact .bindTaken (follows_block enough (follows_state enough _)) fun _ _ => .pure _ rfl
  by_cases transition : token = .ident "transition"
  · subst transition
    exact .stay (.bindTaken (follows_transition enough bound) fun _ _ => .pure _ rfl)
  simp only
  exact follows_unexpected placed stop _

theorem follows_claims (bound : Nat) :
    Follows text none bound (fun _ => 0) Reader.claims (claims text rounds) := by
  refine follows_items enough (follows_item (follows_eat enough .comma bound) ?_)
  refine .bind (follows_expectWord enough _ _) fun _ =>
    .bind (follows_expect enough .minus _) fun _ => ?_
  refine .bind (follows_expectWord enough _ _) fun _ => ?_
  refine .bind (follows_expectWord enough _ _) fun _ => ?_
  exact .bind (follows_dottedName enough _ _) fun _ => .pure _ rfl

theorem follows_interfaces (bound : Nat) :
    Follows text none bound (fun _ => 0) Reader.interfaces (interfaces text rounds) := by
  refine .bind (follows_dottedName enough _ bound) fun first => ?_
  refine follows_itemsThen enough (follows_item (follows_eat enough .comma _) ?_) fun others =>
    .pure _ rfl
  exact .bind (follows_dottedName enough _ _) fun _ => .pure _ rfl

theorem follows_object (bound : Nat) :
    Follows text none bound (fun _ => 1) Reader.object (object text rounds) := by
  refine .lead (follows_expectWord enough _ bound) fun start => ?_
  refine .bind (follows_expectWord enough _ _) fun _ =>
    .bind (follows_objectPath enough _) fun path => ?_
  refine .bind (follows_claims enough _) fun names =>
    .bind (follows_expectWord enough _ _) fun _ => ?_
  refine .bind (follows_interfaces enough _) fun interfaces => ?_
  refine .bind (follows_expect enough .lbrace _) fun _ => ?_
  exact follows_itemsThen enough (follows_part enough _) fun parts => .pure _ rfl

theorem follows_program (bound : Nat) :
    Follows text none bound (fun _ => 0) Reader.program (program text rounds) := by
  refine follows_items enough (.look enough fun token start offset after stop placed _ => ?_)
  cases token with
  | endOfText => exact .pure none rfl
  | _ => exact .stay (.bindTaken (follows_object enough bound) fun _ _ => .pure _ rfl)

end

end SimBus.Surface.Scanner
