import SimBus.Proofs.ReaderSteps
/-!
Expressions that are a number with signs, brackets and boxes around it. In front of the
number they have marks only, so they are read in the same way whatever number it is.
-/

namespace SimBus.Surface

/-- What a number may be wrapped in. Brackets leave no trace in an expression. -/
inductive Layer where
  | negate (position : Position)
  | variant (position : Position)

def Layer.around : Layer → Expr → Expr
  | negate position, inner => .negate position inner
  | variant position, inner => .variant position inner

def wrapped (layers : List Layer) (place : Position) (n : Nat) : Expr :=
  layers.foldr Layer.around (.integer place n)

variable {layers : List Layer} {place : Position} {n : Nat}

theorem wrapped_integer (start : Position) (m : Nat)
    (same : wrapped layers place n = .integer start m) : layers = [] ∧ place = start ∧ n = m := by
  match layers, same with
  | [], same => exact ⟨rfl, Expr.integer.inj same⟩
  | .negate _ :: _, same | .variant _ :: _, same => cases same

theorem wrapped_negate (start : Position) (inner : Expr)
    (same : wrapped layers place n = .negate start inner) :
    ∃ others, layers = .negate start :: others ∧ inner = wrapped others place n := by
  match layers, same with
  | .negate _ :: others, same =>
      obtain ⟨rfl, rfl⟩ := Expr.negate.inj same
      exact ⟨others, rfl, rfl⟩
  | [], same | .variant _ :: _, same => cases same

theorem wrapped_variant (start : Position) (inner : Expr)
    (same : wrapped layers place n = .variant start inner) :
    ∃ others, layers = .variant start :: others ∧ inner = wrapped others place n := by
  match layers, same with
  | .variant _ :: others, same =>
      obtain ⟨rfl, rfl⟩ := Expr.variant.inj same
      exact ⟨others, rfl, rfl⟩
  | [], same | .negate _ :: _, same => cases same

def Expr.isWrapping : Expr → Bool
  | .integer .. | .negate .. | .variant .. => true
  | _ => false

theorem wrapped_isWrapping (layers : List Layer) (place : Position) (n : Nat) :
    (wrapped layers place n).isWrapping = true := by
  match layers with
  | [] | .negate _ :: _ | .variant _ :: _ => rfl

/-- Some marks stand next, and then there is this token, or none that can be read. -/
def Cursor.Behind (next : Except GrammarError Lexeme) : List (Punct × Position) → Cursor → Prop
  | [], c => c.next = next
  | (mark, position) :: marks, c =>
      ∃ after, c.next = .ok ⟨.punct mark, position, after⟩ ∧ Behind next marks after

open Cursor (Behind)

theorem behind_skip {c e : Cursor} (skips : c.skip = .ok e) (next : Except GrammarError Lexeme)
    (marks : List (Punct × Position)) : e.Behind next marks ↔ c.Behind next marks := by
  have same := Cursor.next_skip c e skips
  cases marks with
  | nil => rw [Behind, Behind, same]
  | cons mark marks => rw [Behind, Behind, same]

namespace Reader

variable {α : Type}

theorem peek_next {c : Cursor} {lexeme : Lexeme} (next : c.next = .ok lexeme) :
    ∃ e, c.skip = .ok e ∧ peek.run c = .ok (lexeme, e) := by
  obtain ⟨e, skips, read⟩ := (Cursor.next_ok_iff c lexeme).mp next
  exact ⟨e, skips, (run_peek_ok_iff c e lexeme).mpr ⟨skips, read⟩⟩

theorem peek_next_error {c : Cursor} {fault : GrammarError} (next : c.next = .error fault) :
    peek.run c = .error fault := by
  rw [run_peek]
  cases skips : c.skip with
  | error e =>
      rw [Cursor.next, skips] at next
      exact congrArg Except.error (Except.error.inj next)
  | ok e =>
      rw [Cursor.next, skips] at next
      show (readToken e).map _ = _
      rw [show readToken e = .error fault from next]
      rfl

theorem run_take {c : Cursor} {lexeme : Lexeme} (next : c.next = .ok lexeme)
    (continued : Lexeme → Reader α) :
    (peek >>= fun lexeme => take lexeme >>= fun _ => continued lexeme).run c =
      (continued lexeme).run lexeme.after := by
  obtain ⟨e, -, peeked⟩ := peek_next next
  exact run_bind_ok peeked _

def numberAt (place : Position) (after : Cursor) (outcome : Except GrammarError Nat) :
    Except GrammarError Lexeme :=
  outcome.map fun n => ⟨.integer n, place, after⟩

/-- When the reader reads a number in wrappings it reads every other number in the same
way, and fails where there is no number. -/
def Transparent (reader : Reader Expr) : Prop :=
  ∀ c d layers place n, reader.run c = .ok (wrapped layers place n, d) → ∃ marks after,
    c.Behind (.ok ⟨.integer n, place, after⟩) marks ∧
    ∀ (outcome : Except GrammarError Nat) (c' : Cursor),
      c'.Behind (numberAt place after outcome) marks →
        reader.run c' = outcome.map fun n => (wrapped layers place n, d)

theorem pure_notWrapped {result : Expr} {c d : Cursor} {layers : List Layer} {place : Position}
    {n : Nat} (read : (pure result : Reader Expr).run c = .ok (wrapped layers place n, d))
    (other : result.isWrapping = false) : False := by
  obtain ⟨rfl, -⟩ := (run_pure_ok_iff _ _ _ _).mp read
  rw [wrapped_isWrapping] at other
  cases other

/-! Operators. -/

theorem operatorChain_binary (level : Level) (operand : Reader Expr) (bound : Nat) (c d : Cursor)
    (lhs result : Expr) (read : (operatorChain level operand bound lhs).run c = .ok (result, d))
    (binary : lhs.isWrapping = false) : result.isWrapping = false := by
  induction bound generalizing c lhs with
  | zero =>
      obtain ⟨rfl, -⟩ := (run_pure_ok_iff _ _ _ _).mp read
      exact binary
  | succ bound ih =>
      obtain ⟨found, e, -, read⟩ := (run_bind_ok_iff _ _ _ _ _).mp read
      cases found with
      | none =>
          obtain ⟨rfl, -⟩ := (run_pure_ok_iff _ _ _ _).mp read
          exact binary
      | some op =>
          obtain ⟨rhs, f, -, read⟩ := (run_bind_ok_iff _ _ _ _ _).mp read
          exact ih f _ read rfl

theorem operatorChain_none (level : Level) (operand : Reader Expr) (bound : Nat) (c d : Cursor)
    (lhs result : Expr) (read : (operatorChain level operand bound lhs).run c = .ok (result, d))
    (wrapping : result.isWrapping = true) :
    result = lhs ∧ ∀ other, (operatorChain level operand bound other).run c = .ok (other, d) := by
  cases bound with
  | zero =>
      obtain ⟨rfl, rfl⟩ := (run_pure_ok_iff _ _ _ _).mp read
      exact ⟨rfl, fun _ => rfl⟩
  | succ bound =>
      obtain ⟨found, e, before, read⟩ := (run_bind_ok_iff _ _ _ _ _).mp read
      cases found with
      | none =>
          obtain ⟨rfl, rfl⟩ := (run_pure_ok_iff _ _ _ _).mp read
          refine ⟨rfl, fun other => (run_bind_ok_iff _ _ _ _ _).mpr ⟨none, d, before, rfl⟩⟩
      | some op =>
          obtain ⟨rhs, f, -, read⟩ := (run_bind_ok_iff _ _ _ _ _).mp read
          have binary := operatorChain_binary level operand bound f d _ result read rfl
          exact absurd (binary.symm.trans wrapping) Bool.false_ne_true

theorem transparent_operation {operand : Reader Expr} (through : Transparent operand)
    (levels : List Level) : Transparent (operation operand levels) := by
  induction levels with
  | nil => exact through
  | cons level tighter ih =>
      intro c d layers place n read
      obtain ⟨lhs, e, before, read⟩ := (run_bind_ok_iff _ _ _ _ _).mp read
      obtain ⟨bound, f, counted, read⟩ := (run_bind_ok_iff _ _ _ _ _).mp read
      obtain ⟨rfl, rfl⟩ := Prod.mk.inj (Except.ok.inj counted)
      obtain ⟨rfl, others⟩ := operatorChain_none _ _ _ _ _ _ _ read (wrapped_isWrapping _ _ _)
      obtain ⟨marks, after, stands, reads⟩ := ih c e layers place n before
      refine ⟨marks, after, stands, fun outcome c' behind => ?_⟩
      cases outcome with
      | error fault => exact run_bind_error (reads _ c' behind) _
      | ok n => exact (run_bind_ok (reads _ c' behind) _).trans (others _)

/-! Brackets. -/

theorem eat_false_iff (mark : Punct) (c e : Cursor) : (eat mark).run c = .ok (false, e) ↔
    ∃ lexeme, peek.run c = .ok (lexeme, e) ∧ lexeme.token ≠ .punct mark := by
  rw [eat, run_bind_ok_iff]
  constructor
  · rintro ⟨lexeme, f, peeked, read⟩
    refine ⟨lexeme, ?_⟩
    split at read
    · next found token =>
        split at read
        · cases read
        · next other =>
            obtain ⟨-, rfl⟩ := (run_pure_ok_iff _ _ _ _).mp read
            exact ⟨peeked, fun same => other (Token.punct.inj (token.symm.trans same))⟩
    · next noMark =>
        obtain ⟨-, rfl⟩ := (run_pure_ok_iff _ _ _ _).mp read
        exact ⟨peeked, noMark mark⟩
  · rintro ⟨lexeme, peeked, other⟩
    refine ⟨lexeme, e, peeked, ?_⟩
    split
    · next found token =>
        rw [if_neg fun same => other (by rw [token, same])]
        rfl
    · rfl

theorem eat_behind {mark : Punct} {c e c' : Cursor} {place : Position} {n : Nat} {after : Cursor}
    {marks : List (Punct × Position)} {outcome : Except GrammarError Nat}
    (stands : c.Behind (.ok ⟨.integer n, place, after⟩) marks)
    (looked : (eat mark).run c = .ok (false, e))
    (behind : c'.Behind (numberAt place after outcome) marks) :
    (∃ e', (eat mark).run c' = .ok (false, e') ∧ e'.Behind (numberAt place after outcome) marks) ∨
      ∃ fault, outcome = .error fault ∧ (eat mark).run c' = .error fault := by
  have goesOn (lexeme : Lexeme) (next : c'.next = .ok lexeme) (other : lexeme.token ≠ .punct mark) :
      ∃ e', (eat mark).run c' = .ok (false, e') ∧
        e'.Behind (numberAt place after outcome) marks := by
    obtain ⟨e', skips, peeked⟩ := peek_next next
    exact ⟨e', (eat_false_iff mark c' e').mpr ⟨lexeme, peeked, other⟩,
      (behind_skip skips _ _).mpr behind⟩
  match marks, stands, behind with
  | [], _, next =>
      cases outcome with
      | error fault =>
          exact .inr ⟨fault, rfl, run_bind_error (peek_next_error next) _⟩
      | ok m => exact .inl (goesOn _ next (by simp))
  | (found, position) :: _, ⟨a, first, _⟩, ⟨a', first', _⟩ =>
      obtain ⟨lexeme, peeked, other⟩ := (eat_false_iff mark c e).mp looked
      obtain ⟨f, -, peeked'⟩ := peek_next first
      obtain ⟨rfl, -⟩ := Prod.mk.inj (Except.ok.inj (peeked'.symm.trans peeked))
      exact .inl (goesOn _ first' other)

theorem transparent_group (start : Position) {item : Reader Expr} (through : Transparent item) :
    Transparent (group start item) := by
  intro c d layers place n read
  obtain ⟨closed, e, looked, read⟩ := (run_bind_ok_iff _ _ _ _ _).mp read
  cases closed with
  | true => exact (pure_notWrapped read rfl).elim
  | false =>
      obtain ⟨first, f, before, read⟩ := (run_bind_ok_iff _ _ _ _ _).mp read
      obtain ⟨closed, g, ended, read⟩ := (run_bind_ok_iff _ _ _ _ _).mp read
      cases closed with
      | false =>
          obtain ⟨-, _, -, read⟩ := (run_bind_ok_iff _ _ _ _ _).mp read
          obtain ⟨_, _, -, read⟩ := (run_bind_ok_iff _ _ _ _ _).mp read
          obtain ⟨_, _, -, read⟩ := (run_bind_ok_iff _ _ _ _ _).mp read
          exact (pure_notWrapped read rfl).elim
      | true =>
          obtain ⟨rfl, rfl⟩ := (run_pure_ok_iff _ _ _ _).mp read
          obtain ⟨marks, after, stands, reads⟩ := through e f layers place n before
          obtain ⟨lexeme, peeked, -⟩ := (eat_false_iff _ _ _).mp looked
          have skips := ((run_peek_ok_iff _ _ _).mp peeked).1
          have stands := (behind_skip skips _ _).mp stands
          refine ⟨marks, after, stands, fun outcome c' behind => ?_⟩
          rw [group]
          rcases eat_behind stands looked behind with ⟨e', looked', behind'⟩ | ⟨fault, rfl, failed⟩
          · rw [run_bind_ok looked']
            cases outcome with
            | error fault => exact run_bind_error (reads _ e' behind') _
            | ok m =>
                refine (run_bind_ok (reads _ e' behind') _).trans ?_
                exact (run_bind_ok ended _).trans rfl
          · exact run_bind_error failed _

theorem transparent_primary {unary : Reader Expr} (through : Transparent unary) :
    Transparent (primary unary) := by
  have item := transparent_operation through levels
  intro c d layers place n read
  obtain ⟨⟨token, start, a⟩, e, peeked, read⟩ := (run_bind_ok_iff _ _ _ _ _).mp read
  obtain ⟨_, _, taken, read⟩ := (run_bind_ok_iff _ _ _ _ _).mp read
  obtain ⟨rfl, rfl⟩ := Prod.mk.inj (Except.ok.inj taken)
  have next := (Cursor.next_ok_iff c _).mpr ⟨e, (run_peek_ok_iff _ _ _).mp peeked⟩
  cases token with
  | integer m =>
      obtain ⟨same, rfl⟩ := (run_pure_ok_iff _ _ _ _).mp read
      obtain ⟨rfl, rfl, rfl⟩ := wrapped_integer start m same
      refine ⟨[], d, next, fun outcome c' next' => ?_⟩
      cases outcome with
      | error fault => exact run_bind_error (peek_next_error next') _
      | ok m => exact run_take next' _
  | double | string => exact (pure_notWrapped read rfl).elim
  | endOfText => cases read
  | ident name =>
      dsimp only at read
      split at read
      · exact (pure_notWrapped read rfl).elim
      · split at read
        · exact (pure_notWrapped read rfl).elim
        · split at read
          · obtain ⟨_, _, -, read⟩ := (run_bind_ok_iff _ _ _ _ _).mp read
            exact (pure_notWrapped read rfl).elim
          · obtain ⟨_, _, -, read⟩ := (run_bind_ok_iff _ _ _ _ _).mp read
            split at read
            · obtain ⟨_, _, -, read⟩ := (run_bind_ok_iff _ _ _ _ _).mp read
              exact (pure_notWrapped read rfl).elim
            · exact (pure_notWrapped read rfl).elim
  | punct mark =>
      cases mark with
      | lparen =>
          obtain ⟨marks, after, stands, reads⟩ :=
            transparent_group start item a d layers place n read
          refine ⟨(.lparen, start) :: marks, after, ⟨a, next, stands⟩, fun outcome c' behind => ?_⟩
          obtain ⟨a', next', behind'⟩ := behind
          exact (run_take next' _).trans (reads outcome a' behind')
      | lt =>
          obtain ⟨inner, f, before, read⟩ := (run_bind_ok_iff _ _ _ _ _).mp read
          obtain ⟨_, g, ended, read⟩ := (run_bind_ok_iff _ _ _ _ _).mp read
          obtain ⟨same, rfl⟩ := (run_pure_ok_iff _ _ _ _).mp read
          obtain ⟨others, rfl, rfl⟩ := wrapped_variant start inner same
          obtain ⟨marks, after, stands, reads⟩ :=
            transparent_operation through additiveLevels a f others place n before
          refine ⟨(.lt, start) :: marks, after, ⟨a, next, stands⟩, fun outcome c' behind => ?_⟩
          obtain ⟨a', next', behind'⟩ := behind
          refine (run_take next' _).trans ?_
          cases outcome with
          | error fault => exact run_bind_error (reads _ a' behind') _
          | ok m =>
              refine (run_bind_ok (reads _ a' behind') _).trans ?_
              exact (run_bind_ok ended _).trans rfl
      | lbracket | lbrace =>
          obtain ⟨_, _, -, read⟩ := (run_bind_ok_iff _ _ _ _ _).mp read
          obtain ⟨_, _, -, read⟩ := (run_bind_ok_iff _ _ _ _ _).mp read
          exact (pure_notWrapped read rfl).elim
      | _ => cases read

def opensUnary : Token → Bool
  | .punct .bang | .punct .minus | .punct .at => true
  | _ => false

theorem unaryStep_other (unary : Reader Expr) {c : Cursor} {lexeme : Lexeme}
    (next : c.next = .ok lexeme) (other : opensUnary lexeme.token = false) :
    ∃ e, c.skip = .ok e ∧ (unaryStep unary).run c = (primary unary).run e := by
  obtain ⟨e, skips, peeked⟩ := peek_next next
  refine ⟨e, skips, (run_bind_ok peeked _).trans ?_⟩
  obtain ⟨token, start, after⟩ := lexeme
  cases token with
  | punct mark =>
      cases mark with
      | bang | minus | «at» => cases other
      | _ => rfl
  | _ => rfl

theorem unaryStep_minus (unary : Reader Expr) {c after : Cursor} {start : Position}
    (next : c.next = .ok ⟨.punct .minus, start, after⟩) :
    (unaryStep unary).run c = (unary >>= fun inner => pure (.negate start inner)).run after := by
  obtain ⟨e, -, peeked⟩ := peek_next next
  exact run_bind_ok peeked _

theorem transparent_unaryStep {unary : Reader Expr} (through : Transparent unary) :
    Transparent (unaryStep unary) := by
  intro c d layers place n read
  obtain ⟨⟨token, start, a⟩, e, peeked, continued⟩ := (run_bind_ok_iff _ _ _ _ _).mp read
  have next := (Cursor.next_ok_iff c _).mpr ⟨e, (run_peek_ok_iff _ _ _).mp peeked⟩
  by_cases opens : opensUnary token = true
  · unfold opensUnary at opens
    split at opens
    · obtain ⟨_, _, taken, read⟩ := (run_bind_ok_iff _ _ _ _ _).mp continued
      obtain ⟨_, _, -, read⟩ := (run_bind_ok_iff _ _ _ _ _).mp read
      exact (pure_notWrapped read rfl).elim
    · obtain ⟨_, _, taken, read⟩ := (run_bind_ok_iff _ _ _ _ _).mp continued
      obtain ⟨rfl, rfl⟩ := Prod.mk.inj (Except.ok.inj taken)
      obtain ⟨inner, f, before, read⟩ := (run_bind_ok_iff _ _ _ _ _).mp read
      obtain ⟨same, rfl⟩ := (run_pure_ok_iff _ _ _ _).mp read
      obtain ⟨others, rfl, rfl⟩ := wrapped_negate start inner same
      obtain ⟨marks, after, stands, reads⟩ := through a d others place n before
      refine ⟨(.minus, start) :: marks, after, ⟨a, next, stands⟩, fun outcome c' behind => ?_⟩
      obtain ⟨a', next', behind'⟩ := behind
      refine (unaryStep_minus unary next').trans ?_
      cases outcome with
      | error fault => exact run_bind_error (reads _ a' behind') _
      | ok m => exact (run_bind_ok (reads _ a' behind') _).trans rfl
    · obtain ⟨_, _, taken, read⟩ := (run_bind_ok_iff _ _ _ _ _).mp continued
      obtain ⟨_, _, -, read⟩ := (run_bind_ok_iff _ _ _ _ _).mp read
      obtain ⟨_, _, -, read⟩ := (run_bind_ok_iff _ _ _ _ _).mp read
      exact (pure_notWrapped read rfl).elim
    · cases opens
  · have other := Bool.eq_false_iff.mpr opens
    obtain ⟨e', skips, same⟩ := unaryStep_other unary next other
    rw [same] at read
    obtain ⟨marks, after, stands, reads⟩ := transparent_primary through e' d layers place n read
    have stands := (behind_skip skips _ _).mp stands
    refine ⟨marks, after, stands, fun outcome c' behind => ?_⟩
    have goesOn (lexeme : Lexeme) (next : c'.next = .ok lexeme)
        (other : opensUnary lexeme.token = false) :
        (unaryStep unary).run c' = outcome.map fun n => (wrapped layers place n, d) := by
      obtain ⟨e', skips, same⟩ := unaryStep_other unary next other
      exact same.trans (reads outcome e' ((behind_skip skips _ _).mpr behind))
    match marks, stands, behind with
    | [], _, next' =>
        cases outcome with
        | error fault => exact run_bind_error (peek_next_error next') _
        | ok m => exact goesOn _ next' rfl
    | (mark, q) :: _, ⟨_, first, _⟩, ⟨_, first', _⟩ =>
        obtain ⟨rfl, -⟩ := Lexeme.mk.inj (Except.ok.inj (next.symm.trans first))
        exact goesOn _ first' other

theorem transparent_unary (bound : Nat) : Transparent (unary bound) := by
  induction bound with
  | zero =>
      refine transparent_unaryStep fun c d layers place n read => ?_
      obtain ⟨_, _, -, read⟩ := (run_bind_ok_iff _ _ _ _ _).mp read
      cases read
  | succ bound ih => exact transparent_unaryStep ih

theorem run_expression (c : Cursor) :
    expression.run c = (operation (unary c.rest.length) levels).run c := by
  have counted : remaining.run c = .ok (c.rest.length, c) := rfl
  exact run_bind_ok counted _

theorem transparent_expression {c d : Cursor} {layers : List Layer} {place : Position} {n : Nat}
    (read : expression.run c = .ok (wrapped layers place n, d)) : ∃ marks after,
      c.Behind (.ok ⟨.integer n, place, after⟩) marks ∧
      ∀ (outcome : Except GrammarError Nat) (c' : Cursor),
        c'.Behind (numberAt place after outcome) marks → c'.rest.length = c.rest.length →
          expression.run c' = outcome.map fun n => (wrapped layers place n, d) := by
  rw [run_expression] at read
  obtain ⟨marks, after, stands, reads⟩ :=
    transparent_operation (transparent_unary _) levels c d layers place n read
  refine ⟨marks, after, stands, fun outcome c' behind same => ?_⟩
  rw [run_expression, same]
  exact reads outcome c' behind

end Reader

end SimBus.Surface
