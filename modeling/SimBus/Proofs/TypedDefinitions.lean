import SimBus.Proofs.BodyRuns
import SimBus.Proofs.Inference
/-!
The expressions of an accepted definition have the types that their places call
for: an initializer that of its variable, a precondition `bool`, an assignment
that of the variable, a reply and a signal those of the interface.
-/

namespace SimBus

namespace Statement

/-- The type of the expression in a statement, by what the statement is for. -/
def staticType? (d : Definition) (known : InterfaceSet) (trigger : Trigger) :
    Statement → Option Ty
  | assign name _ => d.dataType? name
  | reply _ =>
      match trigger with
      | .method interface name =>
          ((known.find? interface).bind (·.method? name)).map Method.outputType
      | _ => none
  | emit interface name _ =>
      ((known.find? interface).bind (·.signal? name)).map Signal.payloadType
  | throw _ _ => some .string

end Statement

namespace Definition

def scope (d : Definition) (t : Transition) : Scope :=
  ⟨some (d.data.map fun declared => (declared.name, declared.ty)), t.parameters⟩

structure Typed (table : BuiltinTable) (known : InterfaceSet) (d : Definition) : Prop where
  distinct : (d.data.map DataVariable.name).Nodup
  initializers : ∀ declared ∈ d.data, HasType table ⟨none, []⟩ declared.initializer declared.ty
  preconditions : ∀ t ∈ d.transitions, ∀ p ∈ t.preconditions,
    HasType table (d.scope t) p.condition .bool
  statements : ∀ t ∈ d.transitions, ∀ s ∈ t.body, ∀ expr, s.expression? = some expr →
    ∃ ty, s.staticType? d known t.trigger = some ty ∧ HasType table (d.scope t) expr ty

end Definition

namespace Resolution

theorem check_typed (table : BuiltinTable) (scope : Scope) (context : String) (ty : Ty)
    (raw : Surface.Expr) (expr : Expr)
    (accepted : Typing.check table scope context ty raw = .ok expr) :
    HasType table scope expr ty :=
  Typing.infer_typed raw (some ty) expr ty ((Typing.expect_ok_iff _ _ _ _ _).mp accepted)

theorem checkAll_typed (table : BuiltinTable) (scope : Scope) (context : String)
    (raws : List Surface.Expr) (types : List Ty) (exprs : List Expr)
    (counted : raws.length = types.length)
    (accepted : checkAll table scope context raws types = .ok exprs) :
    HaveTypes table scope exprs types := by
  induction raws generalizing types exprs with
  | nil =>
      obtain rfl := List.eq_nil_of_length_eq_zero counted.symm
      obtain rfl := Except.ok.inj accepted
      exact .nil
  | cons raw rest ih =>
      cases types with
      | nil => simp at counted
      | cons ty types =>
          simp only [checkAll, except_bind_ok_iff] at accepted
          obtain ⟨expr, first, others, later, answered⟩ := accepted
          obtain rfl := Except.ok.inj answered
          exact .cons (check_typed table scope context ty raw expr first)
            (ih types others (by simpa using counted) later)

theorem arguments_typed (table : BuiltinTable) (scope : Scope) (context : String)
    (position : Position) (types : List Ty) (raws : List Surface.Expr) (expr : Expr)
    (accepted : arguments table scope context position types raws = .ok expr) :
    HasType table scope expr (.tuple types) := by
  unfold arguments at accepted
  split at accepted
  · next counted =>
      obtain ⟨items, checked, answered⟩ := (except_bind_ok_iff _ _ _).mp accepted
      obtain rfl := Except.ok.inj answered
      exact .tuple (checkAll_typed table scope context raws types items counted checked)
  · obtain ⟨found, _, refused⟩ := (except_bind_ok_iff _ _ _).mp accepted
    cases refused

/-- The written name stands for the member of the interface: it is qualified by the
interface, or else no other of the interfaces has a member of this name. -/
def StandsFor {α : Type} (interfaces : List Interface) (find : Interface → String → Option α)
    (written interface member : String) : Prop :=
  splitLastDot? written = some (interface, member) ∨
    splitLastDot? written = none ∧ written = member ∧
      ∀ i ∈ interfaces, (find i member).isSome = true → i.name = interface

theorem member_ok {α : Type} (interfaces : List Interface) (kind : MemberKind)
    (find : Interface → String → Option α) (position : Position) (name interface : String)
    (found : α) (accepted : member interfaces kind find position name = .ok (interface, found)) :
    ∃ i ∈ interfaces, i.name = interface ∧ ∃ plain, find i plain = some found ∧
      StandsFor interfaces find name interface plain := by
  unfold member at accepted
  split at accepted
  · next qualifier plain split' =>
      split at accepted
      · cases accepted
      · next i qualified =>
          have named : i.name = qualifier := by simpa using List.find?_some qualified
          split at accepted
          · next found' here =>
              obtain ⟨rfl, rfl⟩ := Prod.mk.inj (Except.ok.inj accepted)
              exact ⟨i, List.mem_of_find?_eq_some qualified, rfl, plain, here,
                .inl (named ▸ split')⟩
          · cases accepted
  · next unqualified =>
      split at accepted
      · cases accepted
      · next candidate only =>
          obtain rfl := Except.ok.inj accepted
          have member : (interface, found) ∈ interfaces.filterMap fun i =>
              (find i name).map fun found => (i.name, found) := by
            rw [only]
            exact List.mem_singleton_self _
          obtain ⟨i, inInterfaces, made⟩ := List.mem_filterMap.mp member
          obtain ⟨found', here, same⟩ := Option.map_eq_some_iff.mp made
          obtain ⟨rfl, rfl⟩ := Prod.mk.inj same
          refine ⟨i, inInterfaces, rfl, name, here, .inr ⟨unqualified, rfl, ?_⟩⟩
          -- Another interface with such a member would be a second candidate.
          intro other inInterfaces' has
          obtain ⟨rival, found'⟩ := Option.isSome_iff_exists.mp has
          have candidate : (other.name, rival) ∈ interfaces.filterMap fun i =>
              (find i name).map fun found => (i.name, found) :=
            List.mem_filterMap.mpr ⟨other, inInterfaces', by rw [found']; rfl⟩
          rw [only] at candidate
          exact congrArg Prod.fst (List.mem_singleton.mp candidate)
      · cases accepted

theorem implemented_known (known : InterfaceSet) (names : List Surface.Name)
    (sofar final : List Interface) (before : ∀ i ∈ sofar, known.find? i.name = some i)
    (accepted : implemented known names sofar = .ok final) :
    ∀ i ∈ final, known.find? i.name = some i := by
  induction names generalizing sofar with
  | nil =>
      obtain rfl := Except.ok.inj accepted
      exact before
  | cons name rest ih =>
      unfold implemented at accepted
      split at accepted
      · cases accepted
      · next i found =>
          refine ih _ ?_ accepted
          intro other member
          split at member
          · exact before other member
          · rcases List.mem_append.mp member with old | new
            · exact before other old
            · obtain rfl := List.mem_singleton.mp new
              rw [known.find?_name name.text other found]
              exact found

inductive ResolvedTrigger (ctx : Context) : Surface.Trigger → TriggerInfo → Prop where
  | method {name : String} {i : Interface} {m : Method} :
      i ∈ ctx.interfaces → i.method? m.name = some m →
      StandsFor ctx.interfaces Interface.method? name i.name m.name →
      ResolvedTrigger ctx (.method name) ⟨.method i.name m.name, parameters m.inputs 0,
        some (Argument.types m.outputs), false⟩
  | property {name : String} {i : Interface} {p : Property} :
      i ∈ ctx.interfaces → i.property? p.name = some p →
      StandsFor ctx.interfaces Interface.property? name i.name p.name →
      ResolvedTrigger ctx (.property name)
        ⟨.property i.name p.name, [("value", p.ty)], none, !p.access.writable⟩
  | arbitrary : ResolvedTrigger ctx .arbitrary ⟨.arbitrary, [], none, false⟩

theorem trigger_resolved (ctx : Context) (position : Position) (raw : Surface.Trigger)
    (info : TriggerInfo) (accepted : trigger ctx position raw = .ok info) :
    ResolvedTrigger ctx raw info := by
  cases raw with
  | method name =>
      obtain ⟨⟨interface, m⟩, found, answered⟩ := (except_bind_ok_iff _ _ _).mp accepted
      obtain rfl := Except.ok.inj answered
      obtain ⟨i, member, rfl, plain, here, stands⟩ := member_ok _ _ _ _ _ _ _ found
      obtain rfl := i.method?_name plain m here
      exact .method member here stands
  | property name =>
      obtain ⟨⟨interface, p⟩, found, answered⟩ := (except_bind_ok_iff _ _ _).mp accepted
      obtain rfl := Except.ok.inj answered
      obtain ⟨i, member, rfl, plain, here, stands⟩ := member_ok _ _ _ _ _ _ _ found
      obtain rfl := i.property?_name plain p here
      exact .property member here stands
  | arbitrary =>
      obtain rfl := Except.ok.inj accepted
      exact .arbitrary

/-- What written statements become, with the types of their expressions. -/
inductive ResolvedStatement (ctx : Context) (scope : Scope) (reply : Option (List Ty)) :
    Surface.Statement → Statement → Prop where
  | assign {position : Position} {name : String} {value : Surface.Expr} {expr : Expr}
      {entry : String × Ty} : scope.locals.any (·.1 == name) = false →
      ctx.data.find? (·.1 == name) = some entry → HasType ctx.table scope expr entry.2 →
      ResolvedStatement ctx scope reply (.assign position name value) (.assign name expr)
  | reply {position : Position} {values : List Surface.Expr} {types : List Ty} {payload : Expr} :
      reply = some types → HasType ctx.table scope payload (.tuple types) →
      ResolvedStatement ctx scope reply (.reply position values) (.reply payload)
  | emit {position : Position} {name : String} {values : List Surface.Expr} {i : Interface}
      {signal : Signal} {payload : Expr} :
      i ∈ ctx.interfaces → i.signal? signal.name = some signal →
      HasType ctx.table scope payload signal.payloadType →
      ResolvedStatement ctx scope reply (.emit position name values)
        (.emit i.name signal.name payload)
  | throw {position : Position} {error : String} :
      ResolvedStatement ctx scope reply (.throw position error none) (.throw error none)
  | throwWith {position : Position} {error : String} {message : Surface.Expr} {expr : Expr} :
      HasType ctx.table scope expr .string →
      ResolvedStatement ctx scope reply (.throw position error (some message))
        (.throw error (some expr))

theorem statement_resolved (ctx : Context) (scope : Scope) (reply : Option (List Ty))
    (raw : Surface.Statement) (s : Statement) (accepted : statement ctx scope reply raw = .ok s) :
    ResolvedStatement ctx scope reply raw s := by
  cases raw with
  | assign position name value =>
      simp only [statement] at accepted
      split at accepted
      · cases accepted
      · next unshadowed =>
          split at accepted
          · cases accepted
          · next entry found =>
              obtain ⟨expr, checked, answered⟩ := (except_bind_ok_iff _ _ _).mp accepted
              obtain rfl := Except.ok.inj answered
              exact .assign (Bool.eq_false_iff.mpr unshadowed) found
                (check_typed _ _ _ _ value expr checked)
  | reply position values =>
      simp only [statement] at accepted
      split at accepted
      · cases accepted
      · next types =>
          obtain ⟨payload, checked, answered⟩ := (except_bind_ok_iff _ _ _).mp accepted
          obtain rfl := Except.ok.inj answered
          exact .reply rfl (arguments_typed _ _ _ _ types values payload checked)
  | emit position name values =>
      obtain ⟨⟨interface, signal⟩, found, accepted⟩ := (except_bind_ok_iff _ _ _).mp accepted
      obtain ⟨payload, checked, answered⟩ := (except_bind_ok_iff _ _ _).mp accepted
      obtain rfl := Except.ok.inj answered
      obtain ⟨i, member, rfl, plain, here, -⟩ := member_ok _ _ _ _ _ _ _ found
      obtain rfl := i.signal?_name plain signal here
      exact .emit member here (arguments_typed _ _ _ _ _ values payload checked)
  | throw position error message =>
      cases message with
      | none =>
          obtain rfl := Except.ok.inj accepted
          exact .throw
      | some message =>
          obtain ⟨expr, checked, answered⟩ := (except_bind_ok_iff _ _ _).mp accepted
          obtain rfl := Except.ok.inj answered
          exact .throwWith (check_typed _ _ _ _ message expr checked)

theorem body_resolved (ctx : Context) (scope : Scope) (reply : Option (List Ty))
    (raws : List Surface.Statement) (statements : List Statement)
    (accepted : body ctx scope reply raws = .ok statements) :
    List.Forall₂ (ResolvedStatement ctx scope reply) raws statements := by
  induction raws generalizing statements with
  | nil =>
      obtain rfl := Except.ok.inj accepted
      exact .nil
  | cons raw rest ih =>
      simp only [body, except_bind_ok_iff] at accepted
      obtain ⟨first, here, others, later, answered⟩ := accepted
      obtain rfl := Except.ok.inj answered
      exact .cons (statement_resolved ctx scope reply raw first here) (ih others later)

theorem statement_typed (table : BuiltinTable) (known : InterfaceSet) (rawObject : Surface.Object)
    (d : Definition) (ctx : Context) (resolved : ResolvedObject table known rawObject d ctx)
    (rawTransition : Surface.Transition) (t : Transition) (info : TriggerInfo)
    (answers : ResolvedTransition ctx rawTransition t info) (raw : Surface.Statement)
    (s : Statement) (expr : Expr)
    (becomes : ResolvedStatement ctx ⟨some ctx.data, info.parameters⟩ info.reply raw s)
    (holds : s.expression? = some expr) :
    ∃ ty, s.staticType? d known t.trigger = some ty ∧ HasType table (d.scope t) expr ty := by
  -- Statements were resolved in the scope of the surface transition.
  have sameScope : (⟨some ctx.data, info.parameters⟩ : Scope) = d.scope t := by
    rw [Definition.scope, resolved.dataTypes, answers.sameParameters]
  have knows := implemented_known known rawObject.interfaces [] ctx.interfaces (by simp)
    resolved.implements
  rw [sameScope] at becomes
  cases becomes with
  | @assign _ name _ _ entry _ found typed =>
      obtain rfl := Option.some.inj holds
      refine ⟨entry.2, ?_, resolved.sameTable ▸ typed⟩
      rw [resolved.dataTypes, List.find?_map] at found
      obtain ⟨declared, here, same⟩ := Option.map_eq_some_iff.mp found
      simp only [Statement.staticType?, Definition.dataType?]
      exact Option.map_eq_some_iff.mpr ⟨declared, here, congrArg Prod.snd same⟩
  | @reply _ _ types _ replies typed =>
      obtain rfl := Option.some.inj holds
      refine ⟨.tuple types, ?_, resolved.sameTable ▸ typed⟩
      rw [answers.sameTrigger]
      have triggered := trigger_resolved ctx _ _ info answers.triggered
      generalize rawTransition.trigger = rawTrigger at triggered
      cases triggered with
      | @method _ i m member found _ =>
          simp [Statement.staticType?, knows i member, found, Method.outputType,
            Option.some.inj replies]
      | property | arbitrary => cases replies
  | @emit _ _ _ i signal _ member found typed =>
      obtain rfl := Option.some.inj holds
      refine ⟨signal.payloadType, ?_, resolved.sameTable ▸ typed⟩
      simp [Statement.staticType?, knows i member, found]
  | throw => cases holds
  | throwWith typed =>
      obtain rfl := Option.some.inj holds
      exact ⟨.string, rfl, resolved.sameTable ▸ typed⟩

theorem preconditions_typed (ctx : Context) (scope : Scope) (raws : List Surface.Precondition)
    (conditions : List Precondition) (accepted : preconditions ctx scope raws = .ok conditions) :
    ∀ p ∈ conditions, HasType ctx.table scope p.condition .bool := by
  induction raws generalizing conditions with
  | nil =>
      obtain rfl := Except.ok.inj accepted
      simp
  | cons raw rest ih =>
      simp only [preconditions, except_bind_ok_iff] at accepted
      obtain ⟨condition, here, others, later, answered⟩ := accepted
      obtain rfl := Except.ok.inj answered
      intro p member
      rcases List.mem_cons.mp member with rfl | inRest
      · exact check_typed ctx.table scope _ .bool raw.condition condition here
      · exact ih others later p inRest

theorem dataVariables_typed (table : BuiltinTable) (raws : List Surface.DataVariable)
    (sofar final : List DataVariable) (distinct : (sofar.map DataVariable.name).Nodup)
    (typed : ∀ declared ∈ sofar, HasType table ⟨none, []⟩ declared.initializer declared.ty)
    (accepted : dataVariables table raws sofar = .ok final) :
    (final.map DataVariable.name).Nodup ∧
      ∀ declared ∈ final, HasType table ⟨none, []⟩ declared.initializer declared.ty := by
  induction raws generalizing sofar with
  | nil =>
      obtain rfl := Except.ok.inj accepted
      exact ⟨distinct, typed⟩
  | cons raw rest ih =>
      unfold dataVariables at accepted
      split at accepted
      · cases accepted
      · next fresh =>
          obtain ⟨initializer, checked, continued⟩ := (except_bind_ok_iff _ _ _).mp accepted
          refine ih _ ?_ ?_ continued
          · rw [List.map_append, List.nodup_append]
            refine ⟨distinct, List.nodup_singleton _, ?_⟩
            rintro name old _ new rfl
            obtain rfl := List.mem_singleton.mp new
            obtain ⟨declared, member, same⟩ := List.mem_map.mp old
            exact fresh (List.any_eq_true.mpr ⟨declared, member, by simpa using same⟩)
          · intro declared member
            rcases List.mem_append.mp member with old | new
            · exact typed declared old
            · obtain rfl := List.mem_singleton.mp new
              exact check_typed table _ _ raw.ty raw.initializer initializer checked

theorem resolved_typed (table : BuiltinTable) (known : InterfaceSet) (raw : Surface.Object)
    (d : Definition) (ctx : Context) (resolved : ResolvedObject table known raw d ctx) :
    d.Typed table known := by
  obtain ⟨distinct, initializers⟩ :=
    dataVariables_typed table raw.data [] d.data (by simp) (by simp) resolved.declared
  refine ⟨distinct, initializers, ?_, ?_⟩
  · intro t member
    obtain ⟨rawTransition, info, answers⟩ := resolved.transitions t member
    have typed := preconditions_typed ctx _ _ t.preconditions answers.guarded
    rw [resolved.sameTable, resolved.dataTypes, ← answers.sameParameters] at typed
    exact typed
  · intro t member s inBody expr holds
    obtain ⟨rawTransition, info, answers⟩ := resolved.transitions t member
    obtain ⟨rawStatement, -, becomes⟩ :=
      forall₂_mem_right (body_resolved ctx _ _ _ t.body answers.bodied) s inBody
    exact statement_typed table known raw d ctx resolved rawTransition t info answers rawStatement
      s expr becomes holds

end Resolution

end SimBus
