import SimBus.Expr.Eval
import SimBus.Proofs.DrawBranches
/-!
Rules for what an evaluation can yield. A triple bounds the values it returns
and the errors it fails with, for all random numbers at once. Among the errors,
some are expected of programs whatever their types; the others tell of a
mistake that types rule out.
-/

namespace SimBus

open Draws (Branch branch_run_pure_iff branch_run_throw_iff branch_run_bind_ok_iff
  branch_run_bind_error_iff branch_run_lift_iff)

/-- The errors that the data alone can cause. -/
inductive EvalError.Expected : EvalError → Prop where
  | divisionByZero : Expected .divisionByZero
  | overflow (operation : String) (ty : Ty) : Expected (.overflow operation ty)
  | indexOutOfRange (index : Int) (length : Nat) : Expected (.indexOutOfRange index length)
  | missingKey (key : Value) : Expected (.missingKey key)
  | invalidObjectPath {path : String} :
      ObjectPath.valid path = false → Expected (.invalidObjectPath path)
  | invalidFreshPath {path : String} :
      ObjectPath.valid path = false → Expected (.value (.invalidObjectPath path))
  | unpaired {keys values : Nat} : keys ≠ values → Expected (.arity "pairKeys" keys values)

namespace Eval

variable {α β : Type}

structure Yields (m : Eval α) (returns : α → Prop) (fails : EvalError → Prop) : Prop where
  returned : ∀ a, Branch m.run (.ok a) → returns a
  failed : ∀ e, Branch m.run (.error e) → fails e

variable {returns : α → Prop} {fails : EvalError → Prop}

theorem yields_pure (a : α) (holds : returns a) : Yields (pure a) returns fails := by
  constructor
  · intro a' branch
    rw [branch_run_pure_iff] at branch
    obtain rfl := Except.ok.inj branch
    exact holds
  · intro e branch
    rw [branch_run_pure_iff] at branch
    cases branch

theorem yields_throw (e : EvalError) (holds : fails e) :
    Yields (throw e : Eval α) returns fails := by
  constructor
  · intro a branch
    rw [branch_run_throw_iff] at branch
    cases branch
  · intro e' branch
    rw [branch_run_throw_iff] at branch
    obtain rfl := Except.error.inj branch
    exact holds

theorem yields_bind {middle : α → Prop} {final : β → Prop} {m : Eval α} {f : α → Eval β}
    (first : Yields m middle fails) (rest : ∀ a, middle a → Yields (f a) final fails) :
    Yields (m >>= f) final fails := by
  constructor
  · intro b branch
    obtain ⟨a, before, after⟩ := (branch_run_bind_ok_iff m f b).mp branch
    exact (rest a (first.returned a before)).returned b after
  · intro e branch
    rcases (branch_run_bind_error_iff m f e).mp branch with stopped | ⟨a, before, after⟩
    · exact first.failed e stopped
    · exact (rest a (first.returned a before)).failed e after

theorem yields_lift (m : Draws α) (holds : ∀ a, Branch m a → returns a) :
    Yields (ExceptT.lift m : Eval α) returns fails := by
  constructor
  · intro a branch
    obtain ⟨a', drawn, same⟩ := (branch_run_lift_iff m _).mp branch
    obtain rfl := Except.ok.inj same
    exact holds a drawn
  · intro e branch
    obtain ⟨a', _, same⟩ := (branch_run_lift_iff m _).mp branch
    cases same

theorem yields_fails {m : Eval α} {fails' : EvalError → Prop} (triple : Yields m returns fails)
    (weaker : ∀ e, fails e → fails' e) : Yields m returns fails' :=
  ⟨triple.returned, fun e branch => weaker e (triple.failed e branch)⟩

theorem branch_run_ofExcept_iff (made result : Except EvalError α) :
    Branch (ofExcept made).run result ↔ result = made := by
  cases made with
  | ok a => exact branch_run_pure_iff a result
  | error e => exact branch_run_throw_iff e result

theorem yields_ofExcept (result : Except EvalError α) (ok : ∀ a, result = .ok a → returns a)
    (error : ∀ e, result = .error e → fails e) : Yields (ofExcept result) returns fails := by
  cases result with
  | ok a => exact yields_pure a (ok a rfl)
  | error e => exact yields_throw e (error e rfl)

theorem yields_ofValue (result : Except ValueError α) (ok : ∀ a, result = .ok a → returns a)
    (error : ∀ e, result = .error e → fails (.value e)) :
    Yields (ofValue result) returns fails := by
  cases result with
  | ok a => exact yields_pure a (ok a rfl)
  | error e => exact yields_throw (.value e) (error e rfl)

end Eval

end SimBus
