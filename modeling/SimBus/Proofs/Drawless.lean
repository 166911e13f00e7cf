import SimBus.Builtin.Standard
import SimBus.Expr.Eval
import SimBus.Proofs.DrawBranches
/-!
Where randomness enters an evaluation. A computation that asks no question has one
result, whatever source it is run on, and leaves the source as it was. Evaluation is
such a computation unless it meets a `choose` or a call of `freshObjectPath`.
-/

namespace SimBus

namespace Draws

variable {α β : Type}

/-- The computation has its result without asking for anything. -/
def Drawless : Draws α → Prop
  | done _ => True
  | index .. | word _ => False

theorem drawless_pure (a : α) : (pure a : Draws α).Drawless := trivial

theorem drawless_iff (m : Draws α) : m.Drawless ↔ ∃ a, m = pure a := by
  constructor
  · intro drawless
    cases m with
    | done a => exact ⟨a, rfl⟩
    | index | word => cases drawless
  · rintro ⟨a, rfl⟩
    exact drawless_pure a

theorem drawless_bind (m : Draws α) (f : α → Draws β) (first : m.Drawless)
    (rest : ∀ a, Branch m a → (f a).Drawless) : (m >>= f).Drawless := by
  obtain ⟨a, rfl⟩ := (drawless_iff m).mp first
  exact rest a (.done a)

theorem drawless_run (m : Draws α) (drawless : m.Drawless) :
    ∃ a, ∀ {σ : Type} (source : RandomSource σ) (s : σ), m.run source s = (a, s) := by
  obtain ⟨a, rfl⟩ := (drawless_iff m).mp drawless
  exact ⟨a, fun _ _ => rfl⟩

end Draws

namespace Eval

variable {α β : Type}

def Drawless (m : Eval α) : Prop := Draws.Drawless m.run

@[simp] theorem drawless_pure (a : α) : Drawless (pure a) := trivial

@[simp] theorem drawless_throw (e : EvalError) : Drawless (throw e : Eval α) := trivial

theorem drawless_bind (m : Eval α) (f : α → Eval β) (first : m.Drawless)
    (rest : ∀ a, (f a).Drawless) : (m >>= f).Drawless := by
  unfold Drawless
  rw [ExceptT.run_bind]
  refine Draws.drawless_bind m.run _ first fun result _ => ?_
  cases result with
  | ok a => exact rest a
  | error e => trivial

@[simp] theorem drawless_ofExcept (result : Except EvalError α) : (ofExcept result).Drawless := by
  cases result <;> trivial

@[simp] theorem drawless_ofValue (result : Except ValueError α) : (ofValue result).Drawless := by
  cases result <;> trivial

end Eval

namespace Builtin

open Eval (drawless_pure drawless_throw drawless_bind drawless_ofValue)

def Drawless (b : Builtin) : Prop := ∀ v, (b.procedure v).Drawless

theorem call_drawless (b : Builtin) (drawless : b.Drawless) (v : Value) : (b.call v).Drawless := by
  unfold call
  split
  · exact drawless_throw _
  · refine drawless_bind _ _ (drawless v) fun result => ?_
    split
    · exact drawless_pure result
    · exact drawless_throw _

@[simp] theorem wrongShape_drawless (members : Nat) : (wrongShape members).Drawless :=
  drawless_throw _

@[simp] theorem position_drawless (index : Value) (bound length : Nat) :
    (position index bound length).Drawless := by
  simp only [position]
  split <;> simp

theorem keys_drawless : keys.Drawless := by
  intro v
  simp only [keys]
  split <;> simp

theorem pairKeys_drawless : pairKeys.Drawless := by
  intro v
  simp only [pairKeys]
  split
  · split <;> simp
  · simp

theorem inArray_drawless : inArray.Drawless := by
  intro v
  simp only [inArray]
  split <;> simp

theorem arrayGet_drawless : arrayGet.Drawless := by
  intro v
  simp only [arrayGet]
  split
  · refine drawless_bind _ _ (position_drawless _ _ _) fun i => ?_
    split <;> simp
  · simp

theorem arrayInsert_drawless : arrayInsert.Drawless := by
  intro v
  simp only [arrayInsert]
  split
  · exact drawless_bind _ _ (position_drawless _ _ _) fun i => drawless_pure _
  · simp

theorem arrayRemove_drawless : arrayRemove.Drawless := by
  intro v
  simp only [arrayRemove]
  split
  · exact drawless_bind _ _ (position_drawless _ _ _) fun i => drawless_pure _
  · simp

theorem dictGet_drawless : dictGet.Drawless := by
  intro v
  simp only [dictGet]
  split
  · split <;> simp
  · simp

theorem dictSet_drawless : dictSet.Drawless := by
  intro v
  simp only [dictSet]
  split <;> simp

theorem dictRemove_drawless : dictRemove.Drawless := by
  intro v
  simp only [dictRemove]
  split <;> simp

theorem length_drawless : length.Drawless := by
  intro v
  simp only [length]
  split <;> simp

theorem stringJoin_drawless : stringJoin.Drawless := by
  intro v
  simp only [stringJoin]
  split <;> simp

end Builtin

def BuiltinTable.Drawless (table : BuiltinTable) : Prop :=
  ∀ function b, table.find? function = some b → function ≠ Builtin.freshObjectPath.name → b.Drawless

theorem Builtin.standard_drawless : standard.Drawless := by
  intro function b found other
  have named : b.name = function := by simpa using List.find?_some found
  have listed : b ∈ standard.functions := List.mem_of_find?_eq_some found
  simp only [standard, List.mem_cons, List.not_mem_nil, or_false] at listed
  rcases listed with rfl | rfl | rfl | rfl | rfl | rfl | rfl | rfl | rfl | rfl | rfl | rfl
  · exact keys_drawless
  · exact pairKeys_drawless
  · exact absurd named.symm other
  · exact inArray_drawless
  · exact arrayGet_drawless
  · exact arrayInsert_drawless
  · exact arrayRemove_drawless
  · exact dictGet_drawless
  · exact dictSet_drawless
  · exact dictRemove_drawless
  · exact length_drawless
  · exact stringJoin_drawless

namespace Expr

open Eval (drawless_pure drawless_throw drawless_bind drawless_ofExcept drawless_ofValue)

mutual
/-- Whether an expression leaves nothing to chance: it has no `choose` in it and no
call of `freshObjectPath`. -/
def isFixed : Expr → Bool
  | literal _ | var _ _ => true
  | call function argument => function != Builtin.freshObjectPath.name && isFixed argument
  | tuple items | array _ items => allFixed items
  | dict _ _ entries => entriesFixed entries
  | variant inner | objectPath inner | not inner | negate inner => isFixed inner
  | binary _ lhs rhs => isFixed lhs && isFixed rhs
  | choice _ => false

def allFixed : List Expr → Bool
  | [] => true
  | item :: rest => isFixed item && allFixed rest

def entriesFixed : List (Expr × Expr) → Bool
  | [] => true
  | (key, value) :: rest => isFixed key && isFixed value && entriesFixed rest
end

theorem call_drawless (ctx : EvalContext) (table : ctx.builtins.Drawless) (function : String)
    (argument : Value) (other : function ≠ Builtin.freshObjectPath.name) :
    (ctx.call function argument).Drawless := by
  unfold EvalContext.call
  split
  · next b found => exact b.call_drawless (table function b found other) argument
  · exact drawless_throw _

theorem binary_drawless (ctx : EvalContext) (op : BinaryOp) (lhs rhs : Expr)
    (left : (lhs.eval ctx).Drawless) (right : (rhs.eval ctx).Drawless) :
    ((binary op lhs rhs).eval ctx).Drawless := by
  have second (op : BinaryOp) : (do
      let right ← rhs.eval ctx
      pure (Value.bool (← Eval.ofExcept (Operator.flag op right))) : Eval Value).Drawless :=
    drawless_bind _ _ right fun _ =>
      drawless_bind _ _ (drawless_ofExcept _) fun _ => drawless_pure _
  cases op with
  | and =>
      refine drawless_bind _ _ left fun v => drawless_bind _ _ (drawless_ofExcept _) fun flag => ?_
      cases flag with
      | true => exact second .and
      | false => exact drawless_pure _
  | or =>
      refine drawless_bind _ _ left fun v => drawless_bind _ _ (drawless_ofExcept _) fun flag => ?_
      cases flag with
      | true => exact drawless_pure _
      | false => exact second .or
  | _ =>
      exact drawless_bind _ _ left fun _ => drawless_bind _ _ right fun _ => drawless_ofExcept _

mutual
theorem eval_drawless (ctx : EvalContext) (table : ctx.builtins.Drawless) :
    (e : Expr) → (fixed : e.isFixed = true) → (e.eval ctx).Drawless
  | literal value, _ => by
      rw [eval]
      exact drawless_pure value
  | var name ty, _ => by
      rw [eval]
      exact drawless_ofExcept _
  | call function argument, fixed => by
      simp only [isFixed, Bool.and_eq_true, bne_iff_ne] at fixed
      rw [eval]
      exact drawless_bind _ _ (eval_drawless ctx table argument fixed.2)
        fun v => call_drawless ctx table function v fixed.1
  | tuple items, fixed => by
      rw [eval]
      exact drawless_bind _ _ (evalList_drawless ctx table items fixed) fun _ => drawless_pure _
  | array element items, fixed => by
      rw [eval]
      exact drawless_bind _ _ (evalList_drawless ctx table items fixed) fun _ => drawless_ofValue _
  | dict key value entries, fixed => by
      rw [eval]
      exact drawless_bind _ _ (evalEntries_drawless ctx table entries fixed)
        fun _ => drawless_ofValue _
  | variant inner, fixed => by
      rw [eval]
      exact drawless_bind _ _ (eval_drawless ctx table inner fixed) fun _ => drawless_pure _
  | objectPath inner, fixed => by
      rw [eval]
      exact drawless_bind _ _ (eval_drawless ctx table inner fixed) fun _ => drawless_ofExcept _
  | not operand, fixed => by
      rw [eval]
      exact drawless_bind _ _ (eval_drawless ctx table operand fixed) fun _ => drawless_ofExcept _
  | negate operand, fixed => by
      rw [eval]
      exact drawless_bind _ _ (eval_drawless ctx table operand fixed) fun _ => drawless_ofExcept _
  | binary op lhs rhs, fixed => by
      simp only [isFixed, Bool.and_eq_true] at fixed
      exact binary_drawless ctx op lhs rhs (eval_drawless ctx table lhs fixed.1)
        (eval_drawless ctx table rhs fixed.2)
  | choice alternatives, fixed => by cases fixed

theorem evalList_drawless (ctx : EvalContext) (table : ctx.builtins.Drawless) :
    (items : List Expr) → (fixed : allFixed items = true) → (evalList ctx items).Drawless
  | [], _ => drawless_pure []
  | item :: rest, fixed => by
      simp only [allFixed, Bool.and_eq_true] at fixed
      rw [evalList]
      exact drawless_bind _ _ (eval_drawless ctx table item fixed.1) fun _ =>
        drawless_bind _ _ (evalList_drawless ctx table rest fixed.2) fun _ => drawless_pure _

theorem evalEntries_drawless (ctx : EvalContext) (table : ctx.builtins.Drawless) :
    (entries : List (Expr × Expr)) → (fixed : entriesFixed entries = true) →
      (evalEntries ctx entries).Drawless
  | [], _ => drawless_pure []
  | (key, value) :: rest, fixed => by
      simp only [entriesFixed, Bool.and_eq_true] at fixed
      rw [evalEntries]
      exact drawless_bind _ _ (eval_drawless ctx table key fixed.1.1) fun _ =>
        drawless_bind _ _ (eval_drawless ctx table value fixed.1.2) fun _ =>
        drawless_bind _ _ (evalEntries_drawless ctx table rest fixed.2) fun _ => drawless_pure _
end

end Expr

end SimBus
