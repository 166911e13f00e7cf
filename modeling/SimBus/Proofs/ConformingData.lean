import SimBus.Proofs.EvalRules
import SimBus.Proofs.ObjectRuns
/-!
Data that conforms to its declaration: the variables are the declared ones, in
their order, and hold values of the declared types. As values of other types are
refused wherever one is put in, this needs nothing from the expressions. What is
to hold of values besides has to be shown of those that are assigned.
-/

namespace SimBus

open Draws (Branch branch_run_bind_ok_iff branch_run_pure_iff)
open Statement (Executes)

namespace Environment

/-- The variables are the declared ones, and their values are good and have the
declared types. -/
structure Conforms (good : Value → Prop) (env : Environment) (data : List DataVariable) : Prop where
  declared : env.map (fun b => (b.name, b.ty)) = data.map fun v => (v.name, v.ty)
  values : ∀ b ∈ env, good b.value ∧ b.value.ty = b.ty
  initials : ∀ b ∈ env, good b.initial ∧ b.initial.ty = b.ty

variable {good : Value → Prop} {env after : Environment} {data : List DataVariable}

theorem declared_binding?
    (same : env.map (fun b => (b.name, b.ty)) = data.map fun v => (v.name, v.ty))
    (name : String) : ((env.binding? name).map fun b => (b.name, b.ty)) =
      (data.map fun v => (v.name, v.ty)).find? (·.1 == name) := by
  rw [← same, List.find?_map]
  rfl

theorem frame_declared (env after : Environment) (same : after.frame = env.frame) :
    (after.map fun b => (b.name, b.ty)) = env.map fun b => (b.name, b.ty) := by
  have names := congrArg (List.map fun entry => (entry.1, entry.2.1)) same
  simpa [frame, Binding.frame, Function.comp_def] using names

theorem assign_conforms (name : String) (value : Value) (conforms : env.Conforms good data)
    (fine : good value) (assigned : env.assign name value = .ok after) :
    after.Conforms good data := by
  have same := assign_frame env after name value assigned
  obtain ⟨b, found, fits, rfl⟩ := (assign_ok_iff env after name value).mp assigned
  have inEnv : b ∈ env := (binding?_member env name b found).1
  constructor
  · exact (frame_declared env _ same).trans conforms.declared
  · exact put_forall _ _ env conforms.values ⟨fine, fits⟩
  · exact put_forall _ _ env conforms.initials (conforms.initials b inEnv)

theorem reset_conforms (conforms : env.Conforms good data) : env.reset.Conforms good data := by
  constructor
  · rw [← conforms.declared, reset, List.map_map]
    rfl
  · exact List.forall_mem_map.mpr conforms.initials
  · exact List.forall_mem_map.mpr conforms.initials

theorem put_fresh (binding : Binding) (env : Environment)
    (fresh : ∀ b ∈ env, b.name ≠ binding.name) : env.put binding = env ++ [binding] := by
  induction env with
  | nil => rfl
  | cons first rest ih =>
      have differs : first.name ≠ binding.name := fresh first List.mem_cons_self
      have others := ih fun b member => fresh b (List.mem_cons_of_mem _ member)
      simp [put, differs, others]

theorem declare_conforms (v : DataVariable) (value : Value) (conforms : env.Conforms good data)
    (fresh : v.name ∉ data.map DataVariable.name) (fine : good value)
    (declared : env.declare v.name v.ty value = .ok after) : after.Conforms good (data ++ [v]) := by
  have freshHere : ∀ b ∈ env, b.name ≠ v.name := by
    intro b member same
    have known : (b.name, b.ty) ∈ data.map fun v => (v.name, v.ty) :=
      conforms.declared ▸ List.mem_map.mpr ⟨b, member, rfl⟩
    obtain ⟨old, inData, entry⟩ := List.mem_map.mp known
    exact fresh (same ▸ (Prod.mk.inj entry).1 ▸ List.mem_map_of_mem inData)
  obtain ⟨fits, added⟩ := (declare_ok_iff env after v.name v.ty value).mp declared
  -- The name is new, so the binding goes behind those of the variables so far.
  rw [put_fresh ⟨v.name, v.ty, value, value⟩ env freshHere] at added
  subst added
  constructor
  · simp [conforms.declared]
  · exact List.forall_mem_append.mpr
      ⟨conforms.values, List.forall_mem_singleton.mpr ⟨fine, fits⟩⟩
  · exact List.forall_mem_append.mpr
      ⟨conforms.initials, List.forall_mem_singleton.mpr ⟨fine, fits⟩⟩

end Environment

namespace Definition

variable {good : Value → Prop} {table : BuiltinTable} {d : Definition}

theorem declareAll_conforms (distinct : (d.data.map DataVariable.name).Nodup)
    (fine : ∀ v ∈ d.data, ∀ env value,
      Branch (v.initializer.eval ⟨table, env, []⟩).run (.ok value) → good value)
    (pending sofar : List DataVariable) (env after : Environment)
    (split : d.data = sofar ++ pending) (conforms : env.Conforms good sofar)
    (branch : Branch (declareAll table pending env).run (.ok after)) :
    after.Conforms good d.data := by
  induction pending generalizing sofar env with
  | nil =>
      rw [declareAll, branch_run_pure_iff] at branch
      obtain rfl := Except.ok.inj branch
      simpa [split] using conforms
  | cons v rest ih =>
      rw [declareAll] at branch
      obtain ⟨value, evaluated, continued⟩ := (branch_run_bind_ok_iff _ _ _).mp branch
      obtain ⟨middle, declared, later⟩ := (branch_run_bind_ok_iff _ _ _).mp continued
      refine ih (sofar ++ [v]) middle (by simp [split]) ?_ later
      have member : v ∈ d.data := by simp [split]
      have fresh : v.name ∉ sofar.map DataVariable.name := by
        rw [split, List.map_append, List.map_cons, List.nodup_append] at distinct
        exact fun old => distinct.2.2 _ old _ List.mem_cons_self rfl
      have made := ((Eval.branch_run_ofExcept_iff _ _).mp declared).symm
      exact Environment.declare_conforms v value conforms fresh
        (fine v member env value evaluated) made

theorem initialData_conforms (distinct : (d.data.map DataVariable.name).Nodup)
    (fine : ∀ v ∈ d.data, ∀ env value,
      Branch (v.initializer.eval ⟨table, env, []⟩).run (.ok value) → good value)
    (env : Environment) (branch : Branch (d.initialData table).run (.ok env)) :
    env.Conforms good d.data := by
  have nothing : Environment.empty.Conforms good [] := by
    constructor <;> simp [Environment.empty]
  exact declareAll_conforms distinct fine d.data [] Environment.empty env rfl nothing branch

theorem executes_conforms {data : List DataVariable} (locals : List (String × Value))
    (body : List Statement) (env after : Environment) (effects : Output)
    (executes : Executes table locals body env effects after)
    (fine : ∀ name expr, .assign name expr ∈ body → ∀ middle : Environment,
      middle.Conforms good data →
        ∀ v, Branch (expr.eval ⟨table, middle, locals⟩).run (.ok v) → good v)
    (conforms : env.Conforms good data) : after.Conforms good data := by
  induction executes with
  | done env => exact conforms
  | @assign name value v rest env middle _ _ evaluated assigned _ ih =>
      apply ih
      · intro other expr later
        exact fine other expr (List.mem_cons_of_mem _ later)
      · exact Environment.assign_conforms name v conforms
          (fine name value List.mem_cons_self env conforms v evaluated) assigned
  | reply _ _ ih | emit _ _ ih =>
      apply ih _ conforms
      intro other expr later
      exact fine other expr (List.mem_cons_of_mem _ later)

end Definition

namespace Object

theorem reached_conforms (d : Definition) (known : InterfaceSet) (table : BuiltinTable) (o : Object)
    (distinct : (d.data.map DataVariable.name).Nodup)
    (reached : Reached d known table (fun _ => True) o) :
    o.env.Conforms (fun _ => True) d.data := by
  refine (reached_invariant d known table (fun _ => True) (fun _ _ => trivial)
    (fun _ env => env.Conforms (fun _ => True) d.data) ?_ ?_ o reached).2
  · intro env fresh
    exact Definition.initialData_conforms distinct (fun _ _ _ _ _ => trivial) env fresh
  · intro o machine env _ conforms evolves
    cases evolves with
    | stayed => exact conforms
    | reset => exact Environment.reset_conforms conforms
    | @moved _ _ _ t locals effects _ _ _ _ executes =>
        exact Definition.executes_conforms locals t.body o.env env effects executes
          (fun _ _ _ _ _ _ _ => trivial) conforms
    | @assigned name value _ _ assigned =>
        exact Environment.assign_conforms name value conforms trivial assigned

end Object

end SimBus
