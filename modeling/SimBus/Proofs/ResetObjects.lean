import SimBus.Proofs.CallDelivery
import SimBus.Proofs.DrawlessRuns
import SimBus.Proofs.EvalRules
/-!
What a reset gives back. No operation touches the initial values or the order of the
data, so a reset object has the machine and the data of a fresh one; and what an object
answers and becomes depends on nothing else, least of all on the bus.
-/

namespace SimBus

open Draws (Branch branch_run_bind_ok_iff branch_run_pure_iff)

namespace Environment

def Fresh (env : Environment) : Prop := ∀ b ∈ env, b.value = b.initial

theorem reset_fresh (env : Environment) (fresh : env.Fresh) : env.reset = env := by
  induction env with
  | nil => rfl
  | cons b rest ih =>
      obtain ⟨here, later⟩ := List.forall_mem_cons.mp fresh
      obtain ⟨name, ty, value, initial⟩ := b
      obtain rfl : value = initial := here
      exact congrArg (List.cons _) (ih later)

theorem reset_of_frame (env after : Environment) (same : after.frame = env.frame) :
    after.reset = env.reset := by
  have rebuilt (env : Environment) :
      env.reset = env.frame.map fun entry => ⟨entry.1, entry.2.1, entry.2.2, entry.2.2⟩ := by
    rw [frame, List.map_map]
    rfl
  rw [rebuilt, rebuilt, same]

theorem reset_frame (env : Environment) : env.reset.frame = env.frame := by
  rw [frame, frame, reset, List.map_map]
  rfl

theorem declare_fresh (env after : Environment) (name : String) (ty : Ty) (value : Value)
    (fresh : env.Fresh) (declared : env.declare name ty value = .ok after) : after.Fresh := by
  obtain ⟨-, rfl⟩ := (declare_ok_iff env after name ty value).mp declared
  exact put_forall _ _ env fresh rfl

end Environment

namespace Definition

theorem declareAll_fresh (table : BuiltinTable) (data : List DataVariable) (env after : Environment)
    (fresh : env.Fresh) (branch : Branch (declareAll table data env).run (.ok after)) :
    after.Fresh := by
  induction data generalizing env with
  | nil =>
      rw [declareAll, branch_run_pure_iff] at branch
      obtain rfl := Except.ok.inj branch
      exact fresh
  | cons v rest ih =>
      obtain ⟨value, -, continued⟩ := (branch_run_bind_ok_iff _ _ _).mp branch
      obtain ⟨middle, declared, later⟩ := (branch_run_bind_ok_iff _ _ _).mp continued
      have made := ((Eval.branch_run_ofExcept_iff _ _).mp declared).symm
      exact ih middle (Environment.declare_fresh env middle v.name v.ty value fresh made) later

end Definition

namespace Object

/-! What happens inside an object, wherever it is stationed. -/

def inside (o : Object) : Object := o.stationed false []

/-- The answers to an operation and what the object becomes, but for the bus. -/
def seen {α : Type} (operation : Draws (α × Object × Bus)) : Draws (α × Object) :=
  (fun reply => (reply.1, reply.2.1.inside)) <$> operation

/-- The object does the same inside, on the bus or off it. -/
def Detached {α : Type} (conduct : Bool → List String → Bus → Draws (α × Object × Bus)) : Prop :=
  ∀ r h bus, seen (conduct r h bus) = seen (conduct false [] Bus.empty)

theorem fire_detached (o : Object) (trigger : Trigger) (arguments : List Value) :
    Detached fun r h bus => (o.stationed r h).fire bus trigger arguments := by
  intro r h bus
  unfold seen fire
  simp only [map_bind]
  refine congrArg _ (funext fun fired => ?_)
  obtain ⟨result, machine, env⟩ := fired
  cases result <;> rfl

theorem assignProperty_detached (o : Object) (p : Property) (value : Value) :
    Detached fun r h bus => pure ((o.stationed r h).assignProperty bus p value) := by
  intro r h bus
  have values (r : Bool) (h : List String) :
      (o.stationed r h).propertyValue p = o.propertyValue p := rfl
  have data (r : Bool) (h : List String) : (o.stationed r h).env = o.env := rfl
  simp only [assignProperty, values, data]
  split
  · rfl
  · split <;> rfl

theorem seen_map {α β : Type} (f : α → β) (operation : Draws (α × Object × Bus)) :
    seen (operation >>= fun reply => pure (f reply.1, reply.2.1, reply.2.2)) =
      (fun reply => (f reply.1, reply.2)) <$> seen operation := by
  simp only [seen, map_bind, map_pure, Functor.map_map]
  rw [← bind_pure_comp]

theorem dispatch_detached (o : Object) (call : Call) :
    Detached fun r h bus => (o.stationed r h).dispatch bus call := by
  refine dispatch_made o Detached (fun _ _ _ _ => rfl) (fire_detached o) (assignProperty_detached o)
    (fun conduct detached r h bus => ?_) call
  rw [seen_map, seen_map, detached]

theorem tick_detached (o : Object) : Detached fun r h bus => (o.stationed r h).tick bus := by
  intro r h bus
  by_cases accepts : o.machine.accepts .arbitrary = true
  · simp only [tick, stationed_accepts, accepts, ↓reduceIte]
    rw [seen_map some, seen_map some]
    exact congrArg _ (fire_detached o .arbitrary [] r h bus)
  · simp only [tick, stationed_accepts, accepts]
    rfl

end Object

def Outcome.answer? : Outcome → Option (Except BusError Output)
  | .answered result => some result
  | .registered _ | .silent => none

/-- What is seen of an object after an operation: the answer, and the state, the count
of triggers and the data that it is left with. -/
structure Sight where
  answer : Option (Except BusError Output)
  state : Nat
  activity : Nat
  env : Environment

def Object.sight (o : Object) (answer : Option (Except BusError Output)) : Sight :=
  ⟨answer, o.machine.current, o.activity, o.env⟩

namespace Object

def watch : (o : Object) → (bus : Bus) → List Operation → Draws (List Sight)
  | _, _, [] => pure []
  | o, bus, operation :: rest => do
      let (outcome, after, bus) ← o.operate bus operation
      let later ← after.watch bus rest
      pure (after.sight outcome.answer? :: later)

theorem attemptRegistration_inside (o : Object) (bus : Bus) :
    (o.attemptRegistration bus).2.1.inside = o.inside := by
  rcases attempted : o.attemptRegistration bus with ⟨result, after, busAfter⟩
  cases result with
  | error e => rw [((attempt_error_iff o after bus busAfter e).mp attempted).1]
  | ok =>
      obtain ⟨-, rfl, -⟩ := register_ok o after bus busAfter
        ((attempt_ok_iff o after bus busAfter).mp attempted)
      rfl

theorem unregister_inside (o : Object) (bus : Bus) : (o.unregister bus).1.inside = o.inside := by
  unfold unregister
  split <;> rfl

/-- The answer to an operation, if it is one that is seen, and what the object becomes. -/
def told (operation : Draws (SimBus.Outcome × Object × Bus)) :
    Draws (Option (Except BusError Output) × Object) :=
  (fun reply => (reply.1.answer?, reply.2)) <$> seen operation

theorem operate_told (o : Object) (bus : Bus) (operation : Operation) :
    told (o.operate bus operation) = told (o.inside.operate Bus.empty operation) := by
  cases operation with
  | call call =>
      have same := dispatch_detached o call o.registered o.held bus
      simp only [told, operate]
      rw [seen_map SimBus.Outcome.answered, seen_map SimBus.Outcome.answered]
      exact congrArg _ (congrArg _ same)
  | tick =>
      have same := tick_detached o o.registered o.held bus
      simp only [told, operate]
      have outcomes := seen_map fun result : Option (Except BusError Output) =>
        result.elim SimBus.Outcome.silent SimBus.Outcome.answered
      refine congrArg _ ((outcomes _).trans (.trans ?_ (outcomes _).symm))
      exact congrArg _ same
  | reset => rfl
  | register =>
      -- Where an object is stationed is not told.
      have off (o : Object) (bus : Bus) :
          told (o.operate bus .register) = pure (none, o.inside) := by
        rw [← attemptRegistration_inside o bus]
        rfl
      rw [off, off]
      rfl
  | unregister =>
      have off (o : Object) (bus : Bus) :
          told (o.operate bus .unregister) = pure (none, o.inside) := by
        rw [← unregister_inside o bus]
        rfl
      rw [off, off]
      rfl

theorem watch_inside (o : Object) (bus : Bus) (script : List Operation) :
    o.watch bus script = o.inside.watch Bus.empty script := by
  induction script generalizing o bus with
  | nil => rfl
  | cons operation rest ih =>
      -- What is told of the first operation settles what is seen of the whole run.
      have step (o : Object) (bus : Bus) : o.watch bus (operation :: rest) =
          told (o.operate bus operation) >>= fun reply =>
            reply.2.watch Bus.empty rest >>= fun later =>
              pure (reply.2.sight reply.1 :: later) := by
        simp only [watch, told, seen, bind_map_left]
        refine congrArg _ (funext fun reply => ?_)
        rw [ih]
        rfl
      rw [step, step, operate_told]

/-! Runs of an object. -/

theorem create_fresh (d : Definition) (known : InterfaceSet) (table : BuiltinTable) (o : Object)
    (branch : Branch (create d known table).run (.ok o)) :
    o.env.Fresh ∧ o = ⟨Machine.new d, o.env, known, table, 0, false, []⟩ := by
  obtain ⟨env, data, made⟩ := (branch_run_bind_ok_iff _ _ _).mp branch
  rw [branch_run_pure_iff] at made
  obtain rfl := Except.ok.inj made
  exact ⟨Definition.declareAll_fresh table d.data _ env
    (by simp [Environment.Fresh, Environment.empty]) data, rfl⟩

structure SameRoots (o after : Object) : Prop where
  definition : after.definition = o.definition
  known : after.known = o.known
  builtins : after.builtins = o.builtins
  frame : after.env.frame = o.env.frame

theorem operates_sameRoots (good : Value → Prop) (unwraps : ∀ v, good v → good (unwrap v))
    (o after : Object) (operates : Operates good o after) : SameRoots o after := by
  obtain ⟨known, definition⟩ := operates_constant good o after operates
  obtain ⟨builtins, evolves⟩ := operates_evolves good unwraps o after operates
  refine ⟨definition, known, builtins, ?_⟩
  generalize after.env = env at evolves
  generalize after.machine = machine at evolves
  cases evolves with
  | stayed => rfl
  | reset => exact o.env.reset_frame
  | moved _ _ _ executes => exact Statement.executes_frame executes
  | assigned _ assigned => exact Environment.assign_frame o.env env _ _ assigned

theorem operated_sameRoots (good : Value → Prop) (unwraps : ∀ v, good v → good (unwrap v))
    (o after : Object) (operated : Relation.ReflTransGen (Operates good) o after) :
    SameRoots o after := by
  induction operated with
  | refl => exact ⟨rfl, rfl, rfl, rfl⟩
  | tail _ operates same =>
      have step := operates_sameRoots good unwraps _ _ operates
      exact ⟨step.definition.trans same.definition, step.known.trans same.known,
        step.builtins.trans same.builtins, step.frame.trans same.frame⟩

theorem reset_inside (d : Definition) (known : InterfaceSet) (table : BuiltinTable)
    (fresh o : Object) (created : Branch (create d known table).run (.ok fresh))
    (operated : Relation.ReflTransGen (Operates fun _ => True) fresh o) :
    o.reset.inside = fresh.inside := by
  obtain ⟨initial, made⟩ := create_fresh d known table fresh created
  have same := operated_sameRoots _ (fun _ _ => trivial) fresh o operated
  have machine : Machine.new o.definition = fresh.machine := by
    rw [same.definition, made]
    rfl
  have env : o.env.reset = fresh.env := by
    rw [Environment.reset_of_frame fresh.env o.env same.frame, fresh.env.reset_fresh initial]
  have activity : fresh.activity = 0 := by rw [made]
  show Object.mk (Machine.new o.definition) o.env.reset o.known o.builtins 0 false [] =
    Object.mk fresh.machine fresh.env fresh.known fresh.builtins fresh.activity false []
  rw [machine, env, same.known, same.builtins, activity]

/-- A reset gives the fresh object back, whatever was drawn for its data and whatever was
done to it: it is in its first state again, with the data it was made with. Operated in
the same way and with the same draws, the two are never told apart. -/
theorem reset_restores (d : Definition) (known : InterfaceSet) (table : BuiltinTable)
    (fresh o : Object) (created : Branch (create d known table).run (.ok fresh))
    (operated : Relation.ReflTransGen (Operates fun _ => True) fresh o) :
    o.reset.machine.current = 0 ∧ o.reset.activity = 0 ∧ o.reset.env = fresh.env ∧
      ∀ (script : List Operation) (bus busFresh : Bus) {σ : Type} (source : RandomSource σ) (s : σ),
        (o.reset.watch bus script).run source s = (fresh.watch busFresh script).run source s := by
  have same := reset_inside d known table fresh o created operated
  refine ⟨rfl, rfl, (Object.mk.inj same).2.1, fun script bus busFresh σ source s => ?_⟩
  rw [watch_inside, same, ← watch_inside]

theorem lamp_restored :
    Relation.ReflTransGen (Operates fun _ => True) unlitLamp (lampGlowing 1 5 (by decide) 1) ∧
      (lampGlowing 1 5 (by decide) 1).reset.env = unlitLamp.env := by
  have lit :
      Relation.ReflTransGen (Operates fun _ => True) unlitLamp (lampGlowing 1 5 (by decide) 1) :=
    .single (.call (fun _ _ => trivial)
      (Draws.run_branch Draws.listedAnswers (unlitLamp.dispatch Bus.empty lampCall) []))
  exact ⟨lit, (reset_restores lamp lampKnown Builtin.standard unlitLamp _ (.done _) lit).2.2.1⟩

end Object

end SimBus
