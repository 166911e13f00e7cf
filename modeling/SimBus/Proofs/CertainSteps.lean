import SimBus.Proofs.Resolved
import SimBus.Proofs.StateClosure
import SimBus.Proofs.TransitionSelection
/-!
What the class `reachable` promises. A transition without rivals, whose
preconditions are all the constant `true` and whose body has no `throw`, is
taken whenever its trigger comes. Such transitions lead to every reachable
state, so that triggers from outside can force a machine into it.
-/

namespace SimBus

open Draws (Branch)
open Statement (Ends)

theorem Precondition.isTrivial_iff (p : Precondition) :
    p.isTrivial = true ↔ p.condition = .literal (.bool true) := by
  change Expr.beq p.condition (.literal (.bool true)) = true ↔ _
  cases p.condition with
  | literal value =>
      rw [Expr.literal.injEq]
      exact Value.beq_bool_iff value true
  | _ => simp [Expr.beq]

theorem Precondition.firstFailure_trivial (ctx : EvalContext) (preconditions : List Precondition)
    (trivial : ∀ p ∈ preconditions, p.isTrivial = true)
    (outcome : Except EvalError (Option String))
    (branch : Branch (firstFailure ctx preconditions).run outcome) : outcome = .ok none := by
  have hold : ∀ p ∈ preconditions, p.Holds ctx := by
    intro p member
    rw [Holds, (isTrivial_iff p).mp (trivial p member)]
    rfl
  rw [firstFailure_allHold ctx preconditions hold] at branch
  exact (Draws.branch_run_pure_iff _ _).mp branch

namespace Statement

variable {table : BuiltinTable} {locals : List (String × Value)}

theorem ends_raised_throws {body : List Statement} {env after : Environment} {output : Output}
    (ends : Ends table locals body env .raised after output) :
    body.any isThrow = true := by
  cases ends with
  | @raised before rest s _ _ _ _ split _ raises =>
      refine List.any_eq_true.mpr ⟨s, ?_, raises_isThrow raises⟩
      simp [split]

end Statement

namespace Definition

theorem uncontested_unique (d : Definition) (t other : Transition) (alone : d.isContested t = false)
    (member : t ∈ d.transitions) (otherMember : other ∈ d.transitions)
    (source : other.source = t.source) (trigger : other.trigger = t.trigger) : other = t := by
  have atMostOne : (d.transitions.filter fun other =>
      other.source == t.source && other.trigger == t.trigger).length ≤ 1 := by
    simpa [isContested] using alone
  have here : t ∈ d.transitions.filter fun other =>
      other.source == t.source && other.trigger == t.trigger := by
    simp [member]
  have there : other ∈ d.transitions.filter fun other =>
      other.source == t.source && other.trigger == t.trigger := by
    simp [otherMember, source, trigger]
  obtain ⟨only, single⟩ := List.length_eq_one_iff.mp
    (Nat.le_antisymm atMostOne (List.length_pos_of_mem here))
  rw [single, List.mem_singleton] at here there
  rw [here, there]

/-- Whatever the data, the arguments and the random numbers are, a machine in
the source of the transition answers its trigger by completing in the target,
or else a statement of the body has a fault. -/
def Takes (d : Definition) (t : Transition) : Prop :=
  ∀ (table : BuiltinTable) (env : Environment) (arguments : List Value),
    arguments.map Value.ty = t.parameters.map Prod.snd →
    ∀ (result : Except MachineError Firing) (after : Machine) (data : Environment),
      Branch (Machine.fire ⟨d, t.source⟩ table env t.trigger arguments) (result, after, data) →
        (∃ firing, result = .ok firing ∧ firing.completed = true ∧ firing.target = t.target ∧
          after = ⟨d, t.target⟩) ∨
        ∃ locals e middle output, result = .error (.eval e) ∧
          t.bindArguments arguments = .ok locals ∧
          Ends table locals t.body env (.faulted e) middle output

/-- Each result of firing a certain transition is a completion or a fault of the
body; the other results need a rival, a precondition that can fail, an argument
of another type, or a `throw`. -/
theorem certain_takes (d : Definition) (t : Transition) (member : t ∈ d.transitions)
    (certain : d.isCertain t = true) (runs : t.alwaysThrows = false) : d.Takes t := by
  intro table env arguments typed result after data branch
  simp only [isCertain, Bool.and_eq_true, bne_iff_ne, Bool.not_eq_true'] at certain
  obtain ⟨⟨-, alone⟩, unconditional⟩ := certain
  have only (place : Nat) (other : Transition)
      (placed : d.transitions[place]? = some other) (source : other.source = t.source)
      (trigger : other.trigger = t.trigger) : other = t :=
    uncontested_unique d t other alone member (List.mem_of_getElem? placed) source trigger
  have bound := (Transition.bindArguments_ok_iff t arguments _).mpr ⟨typed, rfl⟩
  have passes (locals : List (String × Value)) (outcome : Except EvalError (Option String))
      (guarded : Machine.Guarded table env t locals outcome) : outcome = .ok none :=
    Precondition.firstFailure_trivial _ _ (List.all_eq_true.mp unconditional) outcome guarded
  -- Whichever transition the result is about, it reacts as `t` does and so is `t`.
  cases Machine.fire_fires _ table env t.trigger arguments result after data branch with
  | noTransition none =>
      obtain ⟨place, placed⟩ := List.mem_iff_getElem?.mp member
      have candidate := (Machine.mem_candidates_iff ⟨d, t.source⟩ t.trigger place t).mpr
        ⟨placed, rfl, rfl⟩
      rw [none] at candidate
      cases candidate
  | @unbound place other e candidate refused =>
      obtain ⟨placed, source, trigger⟩ := (Machine.mem_candidates_iff _ _ _ _).mp candidate
      rw [only place other placed source trigger, bound] at refused
      cases refused
  | @guardFault place other locals e reacts guarded =>
      rw [only place other reacts.placed reacts.source reacts.trigger] at guarded
      cases passes locals _ guarded
  | @blocked place other locals error reacts guarded =>
      rw [only place other reacts.placed reacts.source reacts.trigger] at guarded
      cases passes locals _ guarded
  | @bodyFault place other locals e middle output reacts _ ends =>
      have same := only place other reacts.placed reacts.source reacts.trigger
      exact .inr ⟨locals, e, middle, output, rfl, same ▸ reacts.bound, same ▸ ends⟩
  | @raised place other locals middle output reacts _ ends =>
      have same := only place other reacts.placed reacts.source reacts.trigger
      have throws := Statement.ends_raised_throws (same ▸ ends)
      rw [Transition.alwaysThrows] at runs
      exact absurd throws (by simp [runs])
  | @completed place other locals _ output reacts _ ends =>
      have same := only place other reacts.placed reacts.source reacts.trigger
      subst same
      obtain ⟨executes⟩ := ends
      exact .inl ⟨_, rfl, by simp [Firing.completed, Statement.executes_error? executes], rfl, rfl⟩

def Forces (d : Definition) (source : Nat) (trigger : Trigger) (target : Nat) : Prop :=
  trigger ≠ .arbitrary ∧ ∃ t ∈ d.transitions, t.source = source ∧ t.trigger = trigger ∧
    t.target = target ∧ d.Takes t

/-- Triggers that force a machine from state to state, each with the state that
it leads to. -/
def Steers (d : Definition) : (first : Nat) → List (Trigger × Nat) → (last : Nat) → Prop
  | first, [], last => last = first
  | first, (trigger, next) :: rest, last => d.Forces first trigger next ∧ d.Steers next rest last

theorem steers_snoc (d : Definition) (steps : List (Trigger × Nat)) (first middle last : Nat)
    (trigger : Trigger) (steers : d.Steers first steps middle)
    (forces : d.Forces middle trigger last) :
    d.Steers first (steps ++ [(trigger, last)]) last := by
  induction steps generalizing first with
  | nil =>
      have same : middle = first := steers
      exact ⟨same ▸ forces, rfl⟩
  | cons step rest ih => exact ⟨steers.1, ih step.2 steers.2⟩

theorem certainTargets_forces (d : Definition) (source target : Nat)
    (edge : target ∈ d.certainTargets source) : ∃ trigger, d.Forces source trigger target := by
  obtain ⟨t, member, from', runs, certain, to'⟩ := (mem_certainTargets_iff d source target).mp edge
  have stimulated : t.trigger ≠ .arbitrary := by
    simp only [isCertain, Bool.and_eq_true, bne_iff_ne] at certain
    exact certain.1.1
  exact ⟨t.trigger, stimulated, t, member, from', rfl, to', certain_takes d t member certain runs⟩

/-- A machine can be forced into every reachable state. -/
theorem reachable_steers (d : Definition) (state : Nat) (name : String)
    (classified : d.stateClasses[state]? = some (name, .reachable)) :
    ∃ steps, d.Steers 0 steps state := by
  obtain ⟨-, connected⟩ := (stateClass_reachable_iff d state name).mp classified
  clear classified
  induction connected with
  | start _ => exact ⟨[], rfl⟩
  | @follow node target _ edge _ ih =>
      obtain ⟨steps, steers⟩ := ih
      obtain ⟨trigger, forces⟩ := certainTargets_forces d node target edge
      exact ⟨steps ++ [(trigger, target)], steers_snoc d steps 0 node target trigger steers forces⟩

theorem lamp_on_steers :
    lamp.stateClasses[1]? = some ("on", .reachable) ∧ ∃ steps, lamp.Steers 0 steps 1 :=
  ⟨by decide, reachable_steers lamp 1 "on" (by decide)⟩

end Definition

end SimBus
