import SimBus.Proofs.BusClaims
import SimBus.Proofs.BusFrame
import SimBus.Proofs.CallDelivery
import SimBus.Reachability
/-!
Objects that leave nothing to chance. Their definitions have no `choose`, no call of
`freshObjectPath` and no two transitions for the same trigger in the same state, so
neither their creation nor any operation on them draws: all random sources make the
same of a run, and are left as they were.
-/

namespace SimBus

open Draws (Branch)

namespace Statement

def isFixed : Statement → Bool
  | assign _ value => value.isFixed
  | reply payload | emit _ _ payload => payload.isFixed
  | throw _ none => true
  | throw _ (some message) => message.isFixed

end Statement

/-- The definition leaves nothing to chance, neither a value nor which transition fires. -/
structure Definition.Fixed (d : Definition) : Prop where
  data : ∀ v ∈ d.data, v.initializer.isFixed = true
  preconditions : ∀ t ∈ d.transitions, ∀ p ∈ t.preconditions, p.condition.isFixed = true
  bodies : ∀ t ∈ d.transitions, ∀ s ∈ t.body, s.isFixed = true
  uncontested : ∀ t ∈ d.transitions, d.isContested t = false

theorem Precondition.firstFailure_drawless (ctx : EvalContext) (table : ctx.builtins.Drawless)
    (preconditions : List Precondition) (fixed : ∀ p ∈ preconditions, p.condition.isFixed = true) :
    (firstFailure ctx preconditions).Drawless := by
  induction preconditions with
  | nil => exact Eval.drawless_pure none
  | cons p rest ih =>
      obtain ⟨here, later⟩ := List.forall_mem_cons.mp fixed
      refine Eval.drawless_bind _ _ (Expr.eval_drawless ctx table p.condition here) fun holds => ?_
      split
      · exact ih later
      · exact Eval.drawless_pure _

namespace Statement

open Draws (drawless_pure drawless_bind)

theorem run_drawless (table : BuiltinTable) (drawless : table.Drawless)
    (locals : List (String × Value)) (body : List Statement) (fixed : ∀ s ∈ body, s.isFixed = true)
    (env : Environment) (output : Output) : (run table locals body env output).Drawless := by
  induction body generalizing env output with
  | nil => exact drawless_pure _
  | cons s rest ih =>
      obtain ⟨here, later⟩ := List.forall_mem_cons.mp fixed
      have evaluated (e : Expr) (fixed : e.isFixed = true) :
          (e.eval ⟨table, env, locals⟩).Drawless :=
        Expr.eval_drawless ⟨table, env, locals⟩ drawless e fixed
      cases s with
      | assign name value =>
          refine drawless_bind _ _ (evaluated value here) fun result _ => ?_
          cases result with
          | error e => exact drawless_pure _
          | ok value =>
              dsimp only
              split
              · exact drawless_pure _
              · exact ih later _ _
      | reply payload =>
          refine drawless_bind _ _ (evaluated payload here) fun result _ => ?_
          cases result with
          | error e => exact drawless_pure _
          | ok payload => exact ih later _ _
      | emit interface signal payload =>
          refine drawless_bind _ _ (evaluated payload here) fun result _ => ?_
          cases result with
          | error e => exact drawless_pure _
          | ok payload => exact ih later _ _
      | throw error message =>
          cases message with
          | none => exact drawless_pure _
          | some message =>
              refine drawless_bind _ _ (evaluated message here) fun result _ => ?_
              cases result <;> exact drawless_pure _

end Statement

namespace Machine

open Draws (drawless_pure drawless_bind)

variable {m : Machine} {table : BuiltinTable}

theorem candidates_length (fixed : m.definition.Fixed) (trigger : Trigger) :
    (m.candidates trigger).length ≤ 1 := by
  have counted : (m.candidates trigger).length =
      (m.definition.transitions.filter (m.reacts trigger)).length := by
    have unplaced := List.filter_map (f := Prod.fst) (p := m.reacts trigger)
      (l := m.definition.transitions.zipIdx)
    rw [List.zipIdx_map_fst] at unplaced
    rw [unplaced, List.length_map, candidates, List.length_map]
    rfl
  rw [counted]
  by_contra several
  obtain ⟨t, among⟩ := List.exists_mem_of_length_pos (Nat.lt_of_succ_lt (Nat.lt_of_not_le several))
  obtain ⟨member, reacting⟩ := List.mem_filter.mp among
  simp only [reacts, Bool.and_eq_true, beq_iff_eq] at reacting
  -- The transitions that react are those that `t` would have to compete with.
  have contested : m.definition.isContested t = true := by
    simp only [Definition.isContested, decide_eq_true_eq, reacting.1, reacting.2]
    exact Nat.lt_of_not_le several
  rw [fixed.uncontested t member] at contested
  cases contested

theorem attempt_drawless (drawless : table.Drawless) (fixed : m.definition.Fixed)
    (env : Environment) (arguments : List Value) (left : List (Nat × Transition))
    (failure : Option (String × Nat))
    (placed : ∀ entry ∈ left, entry.2 ∈ m.definition.transitions) :
    (m.attempt table env arguments left failure).Drawless := by
  induction left generalizing failure with
  | nil => exact drawless_pure _
  | cons entry rest ih =>
      obtain ⟨place, t⟩ := entry
      obtain ⟨here, later⟩ := List.forall_mem_cons.mp placed
      unfold attempt
      split
      · exact drawless_pure _
      · next locals bound =>
          refine drawless_bind _ _ (Precondition.firstFailure_drawless ⟨table, env, locals⟩ drawless
            t.preconditions (fixed.preconditions t here)) fun outcome _ => ?_
          cases outcome with
          | error e => exact drawless_pure _
          | ok failed =>
              cases failed with
              | some error => exact ih _ later
              | none =>
                  refine drawless_bind _ _ (Statement.run_drawless table drawless locals t.body
                    (fixed.bodies t here) env []) fun ended _ => ?_
                  obtain ⟨ending, after, output⟩ := ended
                  cases ending <;> exact drawless_pure _

theorem fire_drawless (drawless : table.Drawless) (fixed : m.definition.Fixed) (env : Environment)
    (trigger : Trigger) (arguments : List Value) :
    (m.fire table env trigger arguments).Drawless := by
  have placed : ∀ entry ∈ m.candidates trigger, entry.2 ∈ m.definition.transitions := by
    intro entry member
    exact List.mem_of_getElem? ((mem_candidates_iff m trigger entry.1 entry.2).mp member).1
  have alone := candidates_length fixed trigger
  unfold fire
  cases found : m.candidates trigger with
  | nil => exact drawless_pure _
  | cons entry rest =>
      rw [found] at alone placed
      -- A single candidate is not shuffled.
      obtain rfl : rest = [] := List.length_eq_zero_iff.mp (by simpa using alone)
      exact attempt_drawless drawless fixed env arguments [entry] none placed

end Machine

namespace Definition

theorem declareAll_drawless (table : BuiltinTable) (drawless : table.Drawless)
    (data : List DataVariable) (fixed : ∀ v ∈ data, v.initializer.isFixed = true)
    (env : Environment) : (declareAll table data env).Drawless := by
  induction data generalizing env with
  | nil => exact Eval.drawless_pure env
  | cons declared rest ih =>
      obtain ⟨here, later⟩ := List.forall_mem_cons.mp fixed
      refine Eval.drawless_bind _ _
        (Expr.eval_drawless ⟨table, env, []⟩ drawless declared.initializer here) fun value => ?_
      exact Eval.drawless_bind _ _ (Eval.drawless_ofExcept _) fun env => ih later env

end Definition

namespace Object

open Draws (drawless_pure drawless_bind)

theorem create_drawless (d : Definition) (known : InterfaceSet) (table : BuiltinTable)
    (fixed : d.Fixed) (drawless : table.Drawless) : (create d known table).Drawless :=
  Eval.drawless_bind _ _ (Definition.declareAll_drawless table drawless d.data fixed.data _)
    fun _ => Eval.drawless_pure _

structure Fixed (o : Object) : Prop where
  definition : o.definition.Fixed
  builtins : o.builtins.Drawless

theorem fire_drawless (o : Object) (fixed : o.Fixed) (bus : Bus) (trigger : Trigger)
    (arguments : List Value) : (o.fire bus trigger arguments).Drawless := by
  refine drawless_bind _ _
    (Machine.fire_drawless fixed.builtins fixed.definition o.env trigger arguments)
    fun fired _ => ?_
  obtain ⟨result, machine, env⟩ := fired
  cases result <;> exact drawless_pure _

theorem dispatch_drawless (o : Object) (fixed : o.Fixed) (bus : Bus) (call : Call) :
    (o.dispatch bus call).Drawless :=
  dispatch_made o (fun conduct => (conduct o.registered o.held bus).Drawless)
    (fun _ => drawless_pure _) (fire_drawless o fixed bus) (fun _ _ => drawless_pure _)
    (fun _ drawless => drawless_bind _ _ drawless fun _ _ => drawless_pure _) call

theorem tick_drawless (o : Object) (fixed : o.Fixed) (bus : Bus) : (o.tick bus).Drawless := by
  unfold tick
  split
  · exact drawless_bind _ _ (fire_drawless o fixed bus _ _) fun _ _ => drawless_pure _
  · exact drawless_pure _

/-- The object runs the same definition with the same interfaces and functions as before. -/
structure SameProgram (o after : Object) : Prop where
  definition : after.definition = o.definition
  known : after.known = o.known
  builtins : after.builtins = o.builtins

theorem SameProgram.fixed {o after : Object} (same : SameProgram o after) (fixed : o.Fixed) :
    after.Fixed :=
  ⟨same.definition ▸ fixed.definition, same.builtins ▸ fixed.builtins⟩

theorem operates_sameProgram (o after : Object) (operates : Operates (fun _ => True) o after) :
    SameProgram o after := by
  obtain ⟨known, definition⟩ := operates_constant (fun _ => True) o after operates
  have evolves := operates_evolves (fun _ => True) (fun _ _ => trivial) o after operates
  exact ⟨definition, known, evolves.1⟩

theorem dispatch_sameProgram (o : Object) (bus : Bus) (call : Call)
    (result : Except BusError Output) (after : Object) (busAfter : Bus)
    (branch : Branch (o.dispatch bus call) (result, after, busAfter)) : SameProgram o after :=
  operates_sameProgram o after (.call (fun _ _ => trivial) branch)

theorem acts_sameProgram (o after : Object) (bus busAfter : Bus)
    (acts : o.Acts bus after busAfter) : SameProgram o after := by
  cases acts with
  | called branch => exact dispatch_sameProgram o bus _ _ after busAfter branch
  | ticked branch => exact operates_sameProgram o after (.tick branch)
  | reset => exact ⟨rfl, rfl, rfl⟩
  | registered registers =>
      obtain ⟨-, rfl, -⟩ := register_ok o after bus busAfter registers
      exact ⟨rfl, rfl, rfl⟩
  | refused => exact ⟨rfl, rfl, rfl⟩
  | unregistered =>
      unfold unregister
      split <;> exact ⟨rfl, rfl, rfl⟩

end Object

inductive Operation where
  | call (call : Call)
  | tick
  | reset
  | register
  | unregister

inductive Outcome where
  | answered (result : Except BusError Output)
  | registered (result : Except RegistrationError Unit)
  /-- There is nothing to answer: the object did not tick, or no answer is due. -/
  | silent

def Object.operate (o : Object) (bus : Bus) : Operation → Draws (Outcome × Object × Bus)
  | .call call => do
      let (result, after, bus) ← o.dispatch bus call
      pure (.answered result, after, bus)
  | .tick => do
      let (result, after, bus) ← o.tick bus
      pure (result.elim .silent .answered, after, bus)
  | .reset => pure (.silent, o.reset, bus)
  | .register =>
      let (result, after, bus) := o.attemptRegistration bus
      pure (.registered result, after, bus)
  | .unregister => pure (.silent, o.unregister bus)

namespace Object

open Draws (drawless_pure drawless_bind branch_bind_iff branch_pure_triple)

theorem operate_acts (o : Object) (bus : Bus) (operation : Operation) (outcome : Outcome)
    (after : Object) (busAfter : Bus)
    (branch : Branch (o.operate bus operation) (outcome, after, busAfter)) :
    o.Acts bus after busAfter := by
  cases operation with
  | call call =>
      obtain ⟨⟨result, o', bus'⟩, dispatched, answered⟩ := (branch_bind_iff _ _ _).mp branch
      obtain ⟨-, rfl, rfl⟩ := branch_pure_triple answered
      exact .called dispatched
  | tick =>
      obtain ⟨⟨result, o', bus'⟩, ticked, answered⟩ := (branch_bind_iff _ _ _).mp branch
      obtain ⟨-, rfl, rfl⟩ := branch_pure_triple answered
      exact .ticked ticked
  | reset =>
      obtain ⟨-, rfl, rfl⟩ := branch_pure_triple branch
      exact .reset
  | register =>
      rcases attempts : o.attemptRegistration bus with ⟨result, o', bus'⟩
      simp only [operate, attempts] at branch
      obtain ⟨-, rfl, rfl⟩ := branch_pure_triple branch
      cases result with
      | error e =>
          obtain ⟨rfl, registers⟩ := (attempt_error_iff o after bus busAfter e).mp attempts
          exact .refused registers
      | ok => exact .registered ((attempt_ok_iff o after bus busAfter).mp attempts)
  | unregister =>
      obtain ⟨-, rfl, rfl⟩ := branch_pure_triple branch
      exact .unregistered

theorem operate_drawless (o : Object) (fixed : o.Fixed) (bus : Bus) (operation : Operation) :
    (o.operate bus operation).Drawless := by
  cases operation with
  | call call =>
      exact drawless_bind _ _ (dispatch_drawless o fixed bus call) fun _ _ => drawless_pure _
  | tick => exact drawless_bind _ _ (tick_drawless o fixed bus) fun _ _ => drawless_pure _
  | reset | register | unregister => exact drawless_pure _

end Object

namespace World

open Draws (drawless_pure drawless_bind branch_bind_iff)

def operate (w : World) (place : Nat) (operation : Operation) : Draws (Outcome × World) :=
  match w.objects[place]? with
  | none => pure (.silent, w)
  | some o => do
      let (outcome, after, bus) ← o.operate w.bus operation
      pure (outcome, ⟨w.objects.set place after, bus⟩)

/-- A history of operations: what each of them answers and what it leaves. -/
def play : List (Nat × Operation) → World → Draws (List (Outcome × World))
  | [], _ => pure []
  | (place, operation) :: rest, w => do
      let (outcome, after) ← w.operate place operation
      let later ← play rest after
      pure ((outcome, after) :: later)

def createAll (known : InterfaceSet) (table : BuiltinTable) :
    List Definition → Draws (List (Except EvalError Object))
  | [] => pure []
  | d :: rest => do
      let created ← (Object.create d known table).run
      let others ← createAll known table rest
      pure (created :: others)

def perform (known : InterfaceSet) (table : BuiltinTable) (definitions : List Definition)
    (bus : Bus) (script : List (Nat × Operation)) :
    Draws (List (Except EvalError Object) × List (Outcome × World)) := do
  let created ← createAll known table definitions
  let history ← play script ⟨created.filterMap Except.toOption, bus⟩
  pure (created, history)

theorem operate_fixed (w after : World) (place : Nat) (operation : Operation) (outcome : Outcome)
    (fixed : ∀ o ∈ w.objects, o.Fixed)
    (branch : Branch (w.operate place operation) (outcome, after)) :
    ∀ o ∈ after.objects, o.Fixed := by
  unfold operate at branch
  split at branch
  · obtain ⟨-, rfl⟩ := Draws.branch_pure_pair branch
    exact fixed
  · next o here =>
      obtain ⟨⟨answer, o', bus⟩, operated, answered⟩ := (branch_bind_iff _ _ _).mp branch
      obtain ⟨-, rfl⟩ := Draws.branch_pure_pair answered
      have same := Object.acts_sameProgram o o' w.bus bus
        (Object.operate_acts o w.bus operation answer o' bus operated)
      intro x member
      rcases List.mem_or_eq_of_mem_set member with other | rfl
      · exact fixed x other
      · exact same.fixed (fixed o (List.mem_of_getElem? here))

theorem operate_drawless (w : World) (fixed : ∀ o ∈ w.objects, o.Fixed) (place : Nat)
    (operation : Operation) : (w.operate place operation).Drawless := by
  unfold operate
  split
  · exact drawless_pure _
  · next o here =>
      exact drawless_bind _ _
        (o.operate_drawless (fixed o (List.mem_of_getElem? here)) w.bus operation)
        fun _ _ => drawless_pure _

theorem play_drawless (script : List (Nat × Operation)) (w : World)
    (fixed : ∀ o ∈ w.objects, o.Fixed) : (play script w).Drawless := by
  induction script generalizing w with
  | nil => exact drawless_pure []
  | cons step rest ih =>
      obtain ⟨place, operation⟩ := step
      refine drawless_bind _ _ (operate_drawless w fixed place operation) fun operated branch => ?_
      obtain ⟨outcome, after⟩ := operated
      exact drawless_bind _ _
        (ih after (operate_fixed w after place operation outcome fixed branch))
        fun _ _ => drawless_pure _

theorem createAll_drawless (known : InterfaceSet) (table : BuiltinTable) (drawless : table.Drawless)
    (definitions : List Definition) (fixed : ∀ d ∈ definitions, d.Fixed) :
    (createAll known table definitions).Drawless := by
  induction definitions with
  | nil => exact drawless_pure []
  | cons d rest ih =>
      obtain ⟨here, later⟩ := List.forall_mem_cons.mp fixed
      exact drawless_bind _ _ (Object.create_drawless d known table here drawless) fun _ _ =>
        drawless_bind _ _ (ih later) fun _ _ => drawless_pure _

theorem createAll_fixed (known : InterfaceSet) (table : BuiltinTable) (drawless : table.Drawless)
    (definitions : List Definition) (fixed : ∀ d ∈ definitions, d.Fixed)
    (created : List (Except EvalError Object))
    (branch : Branch (createAll known table definitions) created) :
    ∀ o ∈ created.filterMap Except.toOption, o.Fixed := by
  induction definitions generalizing created with
  | nil =>
      obtain rfl := (Draws.branch_pure_iff _ _).mp branch
      simp
  | cons d rest ih =>
      obtain ⟨here, later⟩ := List.forall_mem_cons.mp fixed
      obtain ⟨first, made, continued⟩ := (branch_bind_iff _ _ _).mp branch
      obtain ⟨others, madeOthers, both⟩ := (branch_bind_iff _ _ _).mp continued
      obtain rfl := (Draws.branch_pure_iff _ _).mp both
      have rest := ih later others madeOthers
      cases first with
      | error e => exact rest
      | ok o =>
          obtain ⟨machine, builtins, -⟩ := Object.create_ok d known table o made
          have first : o.Fixed := by
            refine ⟨?_, builtins ▸ drawless⟩
            rw [Object.definition, machine]
            exact here
          exact List.forall_mem_cons.mpr ⟨first, rest⟩

/-- If the definitions leave nothing to chance, the objects are created and the
operations are answered in one way, whatever the source of random numbers: every
source gives the same history, of answers and of objects, and is not advanced. -/
theorem perform_deterministic (known : InterfaceSet) (definitions : List Definition)
    (fixed : ∀ d ∈ definitions, d.Fixed) (bus : Bus) (script : List (Nat × Operation)) :
    ∃ history, ∀ {σ : Type} (source : RandomSource σ) (s : σ),
      (perform known Builtin.standard definitions bus script).run source s = (history, s) := by
  apply Draws.drawless_run
  refine drawless_bind _ _
    (createAll_drawless known _ Builtin.standard_drawless definitions fixed)
    fun created branch => ?_
  have objects := createAll_fixed known _ Builtin.standard_drawless definitions fixed created branch
  exact drawless_bind _ _ (play_drawless script _ objects) fun _ _ => drawless_pure _

theorem lamp_fixed : lamp.Fixed :=
  ⟨by decide, by decide, by decide, by decide⟩

def lampScript : List (Nat × Operation) :=
  [(0, .call Object.lampCall), (0, .call Object.lampCall), (0, .reset)]

theorem lamp_deterministic :
    lamp.Fixed ∧ ∃ history,
      (perform lampKnown Builtin.standard [lamp] Bus.empty lampScript).run
        Draws.listedAnswers [1, 2] = (history, [1, 2]) ∧
      (perform lampKnown Builtin.standard [lamp] Bus.empty lampScript).run
        WordGenerator.script.toSource [7] = (history, [7]) ∧
      history.1 = [.ok Object.unlitLamp] ∧
      history.2.map (fun step => step.2.objects.map Object.stateName) =
        [["on"], ["on"], ["off"]] := by
  obtain ⟨history, same⟩ := perform_deterministic lampKnown [lamp]
    (by simpa using lamp_fixed) Bus.empty lampScript
  refine ⟨lamp_fixed, history, same _ _, same _ _, ?_⟩
  obtain rfl := (Prod.mk.inj (same Draws.listedAnswers [])).1
  exact ⟨rfl, rfl⟩

end World

end SimBus
