import SimBus.Proofs.ConformingData
import SimBus.Proofs.TypedDefinitions
/-!
Type soundness over whole runs. The data of an object keeps the declared types
from its creation on, through assignments, rollbacks and resets, as long as
calls bring well-formed arguments; and where the data has its types, every
expression of the definition does what its type promises.
-/

namespace SimBus

open Draws (Branch branch_run_bind_ok_iff branch_run_pure_iff)
open Statement (Executes)

namespace Environment

/-- The variables are the declared ones, and their values have the declared types. -/
structure Holds (env : Environment) (data : List DataVariable) : Prop where
  declared : env.map (fun b => (b.name, b.ty)) = data.map fun v => (v.name, v.ty)
  values : ∀ b ∈ env, b.value.Inhabits b.ty
  initials : ∀ b ∈ env, b.initial.Inhabits b.ty

theorem holds_iff_conforms (env : Environment) (data : List DataVariable) :
    env.Holds data ↔ env.Conforms Value.WellFormed data :=
  ⟨fun holds => ⟨holds.declared, holds.values, holds.initials⟩,
    fun conforms => ⟨conforms.declared, conforms.values, conforms.initials⟩⟩

end Environment

/-- Evaluating the expression in the context does what the type promises. -/
def Expr.Sound (ctx : EvalContext) (expr : Expr) (ty : Ty) : Prop :=
  (expr.eval ctx).Yields (fun v => v.Inhabits ty) (expr.Fault ctx)

namespace Transition

theorem locals_find? (parameters : List (String × Ty)) (arguments : List Value)
    (typed : arguments.map Value.ty = parameters.map Prod.snd)
    (wellFormed : ∀ v ∈ arguments, v.WellFormed) (name : String) :
    match parameters.find? (·.1 == name) with
    | some entry => ∃ local', ((parameters.map Prod.fst).zip arguments).find? (·.1 == name) =
        some local' ∧ local'.2.Inhabits entry.2
    | none => ((parameters.map Prod.fst).zip arguments).find? (·.1 == name) = none := by
  induction parameters generalizing arguments with
  | nil => simp
  | cons parameter rest ih =>
      obtain ⟨own, ty⟩ := parameter
      cases arguments with
      | nil => simp at typed
      | cons v others =>
          simp only [List.map_cons, List.cons.injEq] at typed
          have later := ih others typed.2 fun w member =>
            wellFormed w (List.mem_cons_of_mem _ member)
          by_cases here : own = name
          · simp only [List.find?_cons, here, beq_self_eq_true, List.map_cons, List.zip_cons_cons]
            exact ⟨_, rfl, wellFormed v List.mem_cons_self, typed.1⟩
          · simpa [List.find?_cons, here] using later

end Transition

namespace Definition

variable {table : BuiltinTable} {known : InterfaceSet} {d : Definition}

theorem scope_fits (t : Transition) (env : Environment) (holds : env.Holds d.data)
    (arguments : List Value) (locals : List (String × Value))
    (wellFormed : ∀ v ∈ arguments, v.WellFormed) (bound : t.bindArguments arguments = .ok locals) :
    EvalContext.Fits ⟨table, env, locals⟩ (d.scope t) := by
  obtain ⟨typed, rfl⟩ := (Transition.bindArguments_ok_iff t arguments locals).mp bound
  intro name ty declared
  have hidden := Transition.locals_find? t.parameters arguments typed wellFormed name
  simp only [Scope.typeOf?, scope, Option.getD_some] at declared
  cases found : t.parameters.find? (·.1 == name) with
  | some entry =>
      simp only [found] at declared hidden
      obtain rfl := Option.some.inj declared
      obtain ⟨local', here, inhabits⟩ := hidden
      exact ⟨local'.2, by simp [EvalContext.lookup, here], inhabits⟩
  | none =>
      simp only [found] at declared hidden
      rw [← Environment.declared_binding? holds.declared name] at declared
      cases bound : env.binding? name with
      | none => simp [bound] at declared
      | some b =>
          obtain rfl : b.ty = ty := by simpa [bound] using declared
          exact ⟨b.value, by simp [EvalContext.lookup, hidden, Environment.lookup, bound],
            holds.values b (Environment.binding?_member env name b bound).1⟩

theorem initializer_sound (typed : d.Typed table known) (sound : table.Sound) (v : DataVariable)
    (member : v ∈ d.data) (env : Environment) : v.initializer.Sound ⟨table, env, []⟩ v.ty := by
  have nothing : EvalContext.Fits ⟨table, env, []⟩ ⟨none, []⟩ := by
    intro name ty declared
    simp [Scope.typeOf?] at declared
  exact Expr.eval_yields sound nothing v.initializer v.ty (typed.initializers v member)

theorem precondition_sound (typed : d.Typed table known) (sound : table.Sound) (t : Transition)
    (member : t ∈ d.transitions) (p : Precondition) (guards : p ∈ t.preconditions)
    (env : Environment) (locals : List (String × Value))
    (fits : EvalContext.Fits ⟨table, env, locals⟩ (d.scope t)) :
    p.condition.Sound ⟨table, env, locals⟩ .bool :=
  Expr.eval_yields sound fits p.condition .bool (typed.preconditions t member p guards)

theorem statement_sound (typed : d.Typed table known) (sound : table.Sound) (t : Transition)
    (member : t ∈ d.transitions) (s : Statement) (inBody : s ∈ t.body) (expr : Expr)
    (holds : s.expression? = some expr) (env : Environment) (locals : List (String × Value))
    (fits : EvalContext.Fits ⟨table, env, locals⟩ (d.scope t)) :
    ∃ ty, s.staticType? d known t.trigger = some ty ∧ expr.Sound ⟨table, env, locals⟩ ty := by
  obtain ⟨ty, static, exprTyped⟩ := typed.statements t member s inBody expr holds
  exact ⟨ty, static, Expr.eval_yields sound fits expr ty exprTyped⟩

theorem executes_holds (typed : d.Typed table known) (sound : table.Sound) (t : Transition)
    (member : t ∈ d.transitions) (arguments : List Value) (locals : List (String × Value))
    (wellFormed : ∀ v ∈ arguments, v.WellFormed) (bound : t.bindArguments arguments = .ok locals)
    (body : List Statement) (env after : Environment) (effects : Output)
    (executes : Executes table locals body env effects after) (inBody : ∀ s ∈ body, s ∈ t.body)
    (holds : env.Holds d.data) : after.Holds d.data := by
  rw [Environment.holds_iff_conforms] at holds ⊢
  refine executes_conforms locals body env after effects executes ?_ holds
  intro name value assigns middle conforms v evaluated
  have fits : EvalContext.Fits ⟨table, middle, locals⟩ (d.scope t) :=
    scope_fits t middle ((Environment.holds_iff_conforms _ _).mpr conforms) arguments locals
      wellFormed bound
  -- The types of the data are those before the statement, so it is sound there.
  obtain ⟨ty, -, exprSound⟩ := statement_sound typed sound t member (.assign name value)
    (inBody _ assigns) value rfl middle locals fits
  exact (exprSound.returned v evaluated).1

theorem initialData_holds (typed : d.Typed table known) (sound : table.Sound) (env : Environment)
    (branch : Branch (d.initialData table).run (.ok env)) : env.Holds d.data := by
  rw [Environment.holds_iff_conforms]
  refine initialData_conforms typed.distinct ?_ env branch
  intro v member middle value evaluated
  exact ((initializer_sound typed sound v member middle).returned value evaluated).1

end Definition

namespace Object

theorem unwrap_wellFormed (v : Value) (wellFormed : v.WellFormed) : (unwrap v).WellFormed := by
  cases v with
  | variant inner => exact wellFormed
  | _ => exact wellFormed

def TypedData (d : Definition) (m : Machine) (env : Environment) : Prop :=
  m.definition = d ∧ env.Holds d.data

theorem typedData_kept (d : Definition) (table : BuiltinTable) (known : InterfaceSet)
    (typed : d.Typed table known) (sound : table.Sound) (o : Object) (machine : Machine)
    (env : Environment) (uses : o.builtins = table) (before : TypedData d o.machine o.env)
    (evolves : Evolves Value.WellFormed o machine env) : TypedData d machine env := by
  obtain ⟨rfl, holds⟩ := before
  subst uses
  cases evolves with
  | stayed => exact ⟨rfl, holds⟩
  | reset =>
      rw [Environment.holds_iff_conforms] at holds
      exact ⟨rfl, (Environment.holds_iff_conforms _ _).mpr (Environment.reset_conforms holds)⟩
  | @moved trigger arguments place t locals effects _ wellFormed reacts _ executes =>
      exact ⟨rfl, Definition.executes_holds typed sound t reacts.member
        arguments locals wellFormed reacts.bound t.body o.env env effects executes
        (fun _ inBody => inBody) holds⟩
  | @assigned name value _ wellFormed assigned =>
      rw [Environment.holds_iff_conforms] at holds
      exact ⟨rfl, (Environment.holds_iff_conforms _ _).mpr
        (Environment.assign_conforms name value holds wellFormed assigned)⟩

/-- In every run of an accepted program the data has its declared types, and
the initializers, preconditions and statements are sound at theirs. -/
theorem reached_typeSound (known : InterfaceSet) (text : String) (program : Program)
    (d : Definition) (o : Object)
    (accepted : Program.parse Builtin.standard known text = .ok program)
    (member : d ∈ program.definitions)
    (reached : Reached d known Builtin.standard Value.WellFormed o) :
    o.env.Holds d.data ∧
      (∀ v ∈ d.data, ∀ env, v.initializer.Sound ⟨Builtin.standard, env, []⟩ v.ty) ∧
      ∀ t ∈ d.transitions, ∀ arguments locals, (∀ v ∈ arguments, v.WellFormed) →
        t.bindArguments arguments = .ok locals →
          (∀ p ∈ t.preconditions, p.condition.Sound ⟨Builtin.standard, o.env, locals⟩ .bool) ∧
          ∀ before s rest effects middle expr, t.body = before ++ s :: rest →
            Executes Builtin.standard locals before o.env effects middle →
            s.expression? = some expr → ∃ ty, s.staticType? d known t.trigger = some ty ∧
              expr.Sound ⟨Builtin.standard, middle, locals⟩ ty := by
  obtain ⟨raw, ctx, resolved⟩ :=
    Resolution.parse_resolved Builtin.standard known text program d accepted member
  have typed := Resolution.resolved_typed Builtin.standard known raw d ctx resolved
  have sound := Builtin.standard_sound
  obtain ⟨-, -, holds⟩ := reached_invariant d known Builtin.standard Value.WellFormed
    unwrap_wellFormed (TypedData d)
    (fun env branch => ⟨rfl, Definition.initialData_holds typed sound env branch⟩)
    (fun o machine env => typedData_kept d Builtin.standard known typed sound o machine env)
    o reached
  refine ⟨holds, fun v inData env => Definition.initializer_sound typed sound v inData env, ?_⟩
  intro t inTransitions arguments locals wellFormed bound
  have fits (env : Environment) (envHolds : env.Holds d.data) :
      EvalContext.Fits ⟨Builtin.standard, env, locals⟩ (d.scope t) :=
    Definition.scope_fits t env envHolds arguments locals wellFormed bound
  constructor
  · intro p guards
    exact Definition.precondition_sound typed sound t inTransitions p guards o.env locals
      (fits o.env holds)
  · intro before s rest effects middle expr split executes holdsExpr
    -- The statements in front have kept the types of the data.
    have middleHolds := Definition.executes_holds typed sound t inTransitions arguments locals
      wellFormed bound before o.env middle effects executes (fun s' early => by simp [split, early])
      holds
    exact Definition.statement_sound typed sound t inTransitions s (by simp [split]) expr holdsExpr
      middle locals (fits middle middleHolds)

theorem lamp_lit_typeSound : (lampGlowing 1 5 (by decide) 1).env.Holds lamp.data := by
  have supplied : ∀ v ∈ lampCall.arguments, v.WellFormed := by
    intro v member
    obtain rfl := List.mem_singleton.mp member
    trivial
  exact (reached_typeSound lampKnown lampText ⟨[lamp], []⟩ lamp (lampGlowing 1 5 (by decide) 1)
    lamp_parsed (List.mem_singleton_self lamp) (lamp_lit Value.WellFormed supplied)).1

end Object

end SimBus
