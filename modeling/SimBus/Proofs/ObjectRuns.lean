import SimBus.Proofs.ObjectAnswers
import SimBus.Proofs.Resolved
/-!
Runs of an object: it is created from a definition and then operated, in any
order and on any bus. The machine and the data change only when a body runs to
its end, when a variable is assigned, and by a reset, which is what invariants
have to be checked for.
-/

namespace SimBus

open Draws (Branch branch_run_bind_ok_iff branch_run_pure_iff)
open Statement (Executes)

namespace Object

/-- An operation on an object. The arguments of calls are `good`. -/
inductive Operates (good : Value → Prop) (o : Object) : Object → Prop where
  | call {bus busAfter : Bus} {call : Call} {result : Except BusError Output} {after : Object} :
      (∀ v ∈ call.arguments, good v) → Branch (o.dispatch bus call) (result, after, busAfter) →
      Operates good o after
  | tick {bus busAfter : Bus} {result : Option (Except BusError Output)} {after : Object} :
      Branch (o.tick bus) (result, after, busAfter) → Operates good o after
  | reset : Operates good o o.reset
  | register {bus busAfter : Bus} {after : Object} :
      o.register bus = (.ok after, busAfter) → Operates good o after
  | unregister (bus : Bus) : Operates good o (o.unregister bus).1

inductive Reached (d : Definition) (known : InterfaceSet) (table : BuiltinTable)
    (good : Value → Prop) : Object → Prop where
  | created {o : Object} : Branch (create d known table).run (.ok o) → Reached d known table good o
  | operated {o after : Object} : Reached d known table good o → Operates good o after →
      Reached d known table good after

/-- What an operation makes of the machine and the data. -/
inductive Evolves (good : Value → Prop) (o : Object) : Machine → Environment → Prop where
  | stayed : Evolves good o o.machine o.env
  | reset : Evolves good o (Machine.new o.definition) o.env.reset
  | moved {trigger : Trigger} {arguments : List Value} {place : Nat} {t : Transition}
      {locals : List (String × Value)} {effects : Output} {env : Environment} :
      (∀ v ∈ arguments, good v) → o.machine.Reacts trigger arguments place t locals →
      Machine.Guarded o.builtins o.env t locals (.ok none) →
      Executes o.builtins locals t.body o.env effects env →
      Evolves good o { o.machine with current := t.target } env
  | assigned {name : String} {value : Value} {env : Environment} :
      good value → o.env.assign name value = .ok env → Evolves good o o.machine env

theorem handles_evolves (good : Value → Prop) (o : Object) (bus : Bus) (trigger : Trigger)
    (arguments : List Value) (result : Except BusError Output) (after : Object) (busAfter : Bus)
    (supplied : ∀ v ∈ arguments, good v)
    (handles : Handles o bus trigger arguments result after busAfter) :
    after.builtins = o.builtins ∧ Evolves good o after.machine after.env := by
  cases handles with
  | refused e => exact ⟨rfl, .stayed⟩
  | raised => exact ⟨rfl, .stayed⟩
  | completed reacts guarded executes => exact ⟨rfl, .moved supplied reacts guarded executes⟩

theorem answers_evolves (good : Value → Prop) (unwraps : ∀ v, good v → good (unwrap v))
    (o : Object) (bus : Bus) (call : Call) (result : Except BusError Output) (after : Object)
    (busAfter : Bus) (supplied : ∀ v ∈ call.arguments, good v)
    (answers : Answers o bus call result after busAfter) :
    after.builtins = o.builtins ∧ Evolves good o after.machine after.env := by
  cases answers with
  | refused e => exact ⟨rfl, .stayed⟩
  | read payload _ => exact ⟨rfl, .stayed⟩
  | called _ _ handles => exact handles_evolves good o bus _ _ _ _ _ supplied handles
  | @written _ value _ _ _ _ _ member handles =>
      have unwrapped : ∀ v ∈ [unwrap value], good v := by
        intro v inList
        obtain rfl := List.mem_singleton.mp inList
        exact unwraps value (supplied value member)
      exact handles_evolves good o bus _ _ _ _ _ unwrapped handles
  | @assigned _ _ value _ _ _ _ member _ assigned _ =>
      exact ⟨rfl, .assigned (unwraps value (supplied value member)) assigned⟩

theorem operates_evolves (good : Value → Prop) (unwraps : ∀ v, good v → good (unwrap v))
    (o after : Object) (operates : Operates good o after) :
    after.builtins = o.builtins ∧ Evolves good o after.machine after.env := by
  cases operates with
  | @call bus busAfter call result _ supplied branch =>
      exact answers_evolves good unwraps o bus call result after busAfter supplied
        (dispatch_answers o bus call result after busAfter branch)
  | @tick bus busAfter result _ branch =>
      rcases tick_cases o bus result after busAfter branch with ⟨-, rfl, -⟩ | ⟨answer, -, handles⟩
      · exact ⟨rfl, .stayed⟩
      · exact handles_evolves good o bus _ _ _ _ _ (by simp) handles
  | reset => exact ⟨rfl, .reset⟩
  | @register bus _ _ registered =>
      unfold register at registered
      split at registered
      · cases registered
      · split at registered
        · cases registered
        · split at registered
          · obtain rfl := Except.ok.inj (Prod.mk.inj registered).1
            exact ⟨rfl, .stayed⟩
          · cases registered
  | unregister bus =>
      unfold unregister
      split
      · exact ⟨rfl, .stayed⟩
      · exact ⟨rfl, .stayed⟩

theorem create_ok (d : Definition) (known : InterfaceSet) (table : BuiltinTable) (o : Object)
    (branch : Branch (create d known table).run (.ok o)) :
    o.machine = Machine.new d ∧ o.builtins = table ∧
      Branch (d.initialData table).run (.ok o.env) := by
  obtain ⟨env, data, made⟩ := (branch_run_bind_ok_iff _ _ _).mp branch
  rw [branch_run_pure_iff] at made
  obtain rfl := Except.ok.inj made
  exact ⟨rfl, rfl, data⟩

/-- What holds of fresh data and is kept by every change holds in every run. -/
theorem reached_invariant (d : Definition) (known : InterfaceSet) (table : BuiltinTable)
    (good : Value → Prop) (unwraps : ∀ v, good v → good (unwrap v))
    (holds : Machine → Environment → Prop)
    (fresh : ∀ env, Branch (d.initialData table).run (.ok env) → holds (Machine.new d) env)
    (kept : ∀ o machine env, o.builtins = table → holds o.machine o.env →
      Evolves good o machine env → holds machine env)
    (o : Object) (reached : Reached d known table good o) :
    o.builtins = table ∧ holds o.machine o.env := by
  induction reached with
  | created branch =>
      obtain ⟨machine, builtins, data⟩ := create_ok d known table _ branch
      exact ⟨builtins, machine ▸ fresh _ data⟩
  | operated _ operates ih =>
      obtain ⟨builtins, before⟩ := ih
      obtain ⟨same, evolves⟩ := operates_evolves good unwraps _ _ operates
      exact ⟨same.trans builtins, kept _ _ _ builtins before evolves⟩

/-! The lamp, and the lamp after a call. -/

def lampLevel (level : Nat) (inRange : level ≤ 255) : Value :=
  .int .byte ⟨level, Int.natCast_nonneg level, Int.ofNat_le.mpr inRange⟩

def lampGlowing (current level : Nat) (inRange : level ≤ 255) (activity : Nat) : Object where
  machine := ⟨lamp, current⟩
  env := [⟨"glow", .int .byte, lampLevel level inRange, lampLevel 0 (Nat.zero_le 255)⟩]
  known := lampKnown
  builtins := Builtin.standard
  activity := activity
  registered := false
  held := []

def unlitLamp : Object := lampGlowing 0 0 (Nat.zero_le 255) 0

def lampCall : Call := ⟨"test.Lamp", "Light", [lampLevel 5 (by decide)]⟩

theorem lamp_created (good : Value → Prop) :
    Reached lamp lampKnown Builtin.standard good (lampGlowing 0 0 (by decide) 0) :=
  .created (.done _)

theorem lamp_lit (good : Value → Prop) (supplied : ∀ v ∈ lampCall.arguments, good v) :
    Reached lamp lampKnown Builtin.standard good (lampGlowing 1 5 (by decide) 1) :=
  .operated (lamp_created good) (.call supplied
    (Draws.run_branch Draws.listedAnswers
      ((lampGlowing 0 0 (by decide) 0).dispatch Bus.empty lampCall) []))

end Object

end SimBus
