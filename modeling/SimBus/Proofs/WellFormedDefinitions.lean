import SimBus.Proofs.ResolvedMembers
/-!
What accepted definitions look like. Their names are distinct where they have to
be, every name that was written stands for something that exists, and transitions
lead from states to states. A machine therefore stays inside its table of states,
whatever it is fired with.
-/

namespace SimBus

open Draws (Branch)

namespace Expr

mutual
theorem variableNames_scoped {table : BuiltinTable} {scope : Scope} :
    (expr : Expr) → (ty : Ty) → HasType table scope expr ty →
      ∀ name ∈ expr.variableNames, (scope.typeOf? name).isSome = true
  | .literal _, _, _ => by simp [variableNames]
  | .var name ty, _, .var typed => by simp [variableNames, typed]
  | .call _ argument, _, .call _ typed _ => by
      simpa [variableNames] using variableNames_scoped argument _ typed
  | .tuple items, _, .tuple typed => by
      simpa [variableNames] using variableNamesOfList_scoped items _ typed
  | .array _ items, _, .array typed => by
      simpa [variableNames] using variableNamesOfList_scoped items _ typed
  | .dict _ _ entries, _, .dict typed => by
      simpa [variableNames] using variableNamesOfEntries_scoped entries _ _ typed
  | .variant inner, _, .variant typed => by
      simpa [variableNames] using variableNames_scoped inner _ typed
  | .objectPath inner, _, .objectPath typed => by
      simpa [variableNames] using variableNames_scoped inner _ typed
  | .not operand, _, .not typed => by
      simpa [variableNames] using variableNames_scoped operand _ typed
  | .negate operand, _, .negate _ typed => by
      simpa [variableNames] using variableNames_scoped operand _ typed
  | .binary _ lhs rhs, _, .logical _ left right => by
      rw [variableNames]
      exact List.forall_mem_append.mpr
        ⟨variableNames_scoped lhs _ left, variableNames_scoped rhs _ right⟩
  | .binary _ lhs rhs, _, .operation _ _ left right => by
      rw [variableNames]
      exact List.forall_mem_append.mpr
        ⟨variableNames_scoped lhs _ left, variableNames_scoped rhs _ right⟩
  | .choice (first :: others), _, .choice typed same => by
      rw [variableNames, variableNamesOfList]
      exact List.forall_mem_append.mpr
        ⟨variableNames_scoped first _ typed, variableNamesOfList_scoped others _ same⟩

theorem variableNamesOfList_scoped {table : BuiltinTable} {scope : Scope} :
    (items : List Expr) → (types : List Ty) → HaveTypes table scope items types →
      ∀ name ∈ variableNamesOfList items, (scope.typeOf? name).isSome = true
  | [], _, _ => by simp [variableNamesOfList]
  | item :: rest, _, .cons typed others => by
      rw [variableNamesOfList]
      exact List.forall_mem_append.mpr
        ⟨variableNames_scoped item _ typed, variableNamesOfList_scoped rest _ others⟩

theorem variableNamesOfEntries_scoped {table : BuiltinTable} {scope : Scope} :
    (entries : List (Expr × Expr)) → (key value : Ty) →
      HaveEntries table scope key value entries →
      ∀ name ∈ variableNamesOfEntries entries, (scope.typeOf? name).isSome = true
  | [], _, _, _ => by simp [variableNamesOfEntries]
  | (k, v) :: rest, key, value, .cons first second others => by
      rw [variableNamesOfEntries]
      refine List.forall_mem_append.mpr ⟨List.forall_mem_append.mpr ⟨?_, ?_⟩, ?_⟩
      · exact variableNames_scoped k key first
      · exact variableNames_scoped v value second
      · exact variableNamesOfEntries_scoped rest key value others
end

theorem variableNames_closed {table : BuiltinTable} (expr : Expr) (ty : Ty)
    (typed : HasType table ⟨none, []⟩ expr ty) : expr.variableNames = [] := by
  apply List.eq_nil_iff_forall_not_mem.mpr
  intro name mentioned
  have found := variableNames_scoped expr ty typed name mentioned
  simp [Scope.typeOf?] at found

end Expr

/-- The arguments of a method as parameters. One without a name is called after
its place. -/
def Method.parameters (m : Method) : List (String × Ty) :=
  m.inputs.zipIdx.map fun entry => (entry.1.name.getD ("arg" ++ toString entry.2), entry.1.ty)

namespace Definition

def implemented (d : Definition) (known : InterfaceSet) : List Interface :=
  d.interfaces.filterMap known.find?

/-- The trigger and the parameters that a written trigger stands for. -/
inductive Resolves (known : InterfaceSet) (d : Definition) :
    Surface.Trigger → Trigger → List (String × Ty) → Prop where
  | method {name : String} {i : Interface} {m : Method} :
      d.interface? known i.name = some i → i.method? m.name = some m →
      Resolution.StandsFor (d.implemented known) Interface.method? name i.name m.name →
      Resolves known d (.method name) (.method i.name m.name) m.parameters
  | property {name : String} {i : Interface} {p : Property} :
      d.interface? known i.name = some i → i.property? p.name = some p →
      Resolution.StandsFor (d.implemented known) Interface.property? name i.name p.name →
      Resolves known d (.property name) (.property i.name p.name) [("value", p.ty)]
  | arbitrary : Resolves known d .arbitrary .arbitrary []

structure WellFormedTransition (known : InterfaceSet) (d : Definition) (raw : Surface.Transition)
    (t : Transition) : Prop where
  source : d.states[t.source]? = some raw.source.text
  target : d.states[t.target]? = some raw.target.text
  trigger : d.Resolves known raw.trigger t.trigger t.parameters
  replies : ∀ payload, .reply payload ∈ t.body → Resolution.isMethod t.trigger = true
  answers : Resolution.isMethod t.trigger = true → ∃ s ∈ t.body, s.answers = true
  assigns : ∀ name value, .assign name value ∈ t.body →
    name ∈ d.data.map DataVariable.name ∧ name ∉ t.parameters.map Prod.fst
  emits : ∀ interface name payload, .emit interface name payload ∈ t.body →
    ∃ i s, d.interface? known interface = some i ∧ i.signal? name = some s

/-- What a definition owes to the interfaces it was read against, and to the object
that was written. -/
structure WellFormed (known : InterfaceSet) (raw : Surface.Object) (d : Definition) : Prop where
  path : d.path = raw.path ∧ ObjectPath.valid d.path = true
  states : d.states ≠ [] ∧ d.states.Nodup ∧ d.states = raw.states.map Surface.Name.text
  data : (d.data.map DataVariable.name).Nodup
  initializers : ∀ v ∈ d.data, v.initializer.variableNames = []
  interfaces : d.interfaces.Nodup
  described : ∀ name ∈ d.interfaces, ∃ i, known.find? name = some i
  transitions : List.Forall₂ (d.WellFormedTransition known) raw.transitions d.transitions
  unrepeated : d.transitions.Pairwise fun earlier later => earlier.sameRule later = false

end Definition

namespace Resolution

theorem states_ok (names : List Surface.Name) (sofar final : List String)
    (distinct : sofar.Nodup) (accepted : states names sofar = .ok final) :
    final = sofar ++ names.map Surface.Name.text ∧ final.Nodup := by
  -- On the names that are left; those in `sofar` are distinct.
  induction names generalizing sofar with
  | nil =>
      obtain rfl := Except.ok.inj accepted
      exact ⟨by simp, distinct⟩
  | cons name rest ih =>
      unfold states at accepted
      split at accepted
      · cases accepted
      · next fresh =>
          have extended : (sofar ++ [name.text]).Nodup := by
            apply List.nodup_append.mpr
            refine ⟨distinct, List.nodup_singleton _, ?_⟩
            rintro old inSofar new isName rfl
            exact fresh (List.mem_singleton.mp isName ▸ inSofar)
          obtain ⟨rfl, nodup⟩ := ih (sofar ++ [name.text]) extended accepted
          exact ⟨by simp, nodup⟩

theorem state_named (ctx : Context) (name : Surface.Name) (id : Nat)
    (accepted : state ctx name = .ok id) : ctx.states[id]? = some name.text := by
  unfold state at accepted
  split at accepted
  · next found =>
      obtain rfl := Except.ok.inj accepted
      obtain ⟨inRange, same, -⟩ := List.findIdx?_eq_some_iff_getElem.mp found
      rw [List.getElem?_eq_getElem inRange]
      simpa using same
  · cases accepted

theorem parameters_eq_map (arguments : List Argument) (place : Nat) :
    parameters arguments place = (arguments.zipIdx place).map fun entry =>
      (entry.1.name.getD ("arg" ++ toString entry.2), entry.1.ty) := by
  induction arguments generalizing place with
  | nil => rfl
  | cons argument rest ih => rw [parameters, ih, List.zipIdx_cons, List.map_cons]

variable {table : BuiltinTable} {known : InterfaceSet} {rawObject : Surface.Object}
  {d : Definition} {ctx : Context}

theorem resolved_implemented (resolved : ResolvedObject table known rawObject d ctx) :
    d.implemented known = ctx.interfaces := by
  have knows := implemented_known known rawObject.interfaces [] ctx.interfaces (by simp)
    resolved.implements
  rw [Definition.implemented, resolved.sameInterfaces, List.filterMap_map]
  conv_rhs => rw [← List.filterMap_some (l := ctx.interfaces)]
  exact List.filterMap_congr knows

theorem resolved_resolves (resolved : ResolvedObject table known rawObject d ctx)
    (raw : Surface.Transition) (t : Transition) (info : TriggerInfo)
    (answers : ResolvedTransition ctx raw t info) :
    d.Resolves known raw.trigger t.trigger t.parameters := by
  have triggered := trigger_resolved ctx _ _ info answers.triggered
  generalize raw.trigger = rawTrigger at triggered
  rw [answers.sameTrigger, answers.sameParameters]
  cases triggered with
  | method member found stands =>
      rw [parameters_eq_map]
      rw [← resolved_implemented resolved] at stands
      exact .method (resolved_interface? resolved _ member) found stands
  | property member found stands =>
      rw [← resolved_implemented resolved] at stands
      exact .property (resolved_interface? resolved _ member) found stands
  | arbitrary => exact .arbitrary

theorem resolved_replies (raw : Surface.Transition) (t : Transition) (info : TriggerInfo)
    (answers : ResolvedTransition ctx raw t info) (payload : Expr)
    (inBody : .reply payload ∈ t.body) : isMethod t.trigger = true := by
  obtain ⟨rawStatement, -, becomes⟩ :=
    forall₂_mem_right (body_resolved ctx _ _ _ t.body answers.bodied) _ inBody
  have triggered := trigger_resolved ctx _ _ info answers.triggered
  rw [answers.sameTrigger]
  generalize raw.trigger = rawTrigger at triggered
  cases triggered with
  | method => rfl
  | property | arbitrary =>
      -- These call for no reply, so none was accepted.
      cases becomes with
      | reply replies _ => cases replies

theorem resolved_assigns (resolved : ResolvedObject table known rawObject d ctx)
    (raw : Surface.Transition) (t : Transition) (info : TriggerInfo)
    (answers : ResolvedTransition ctx raw t info) (name : String) (value : Expr)
    (inBody : .assign name value ∈ t.body) :
    name ∈ d.data.map DataVariable.name ∧ name ∉ t.parameters.map Prod.fst := by
  obtain ⟨rawStatement, -, becomes⟩ :=
    forall₂_mem_right (body_resolved ctx _ _ _ t.body answers.bodied) _ inBody
  cases becomes with
  | @assign _ _ _ _ entry unshadowed found _ =>
      constructor
      · rw [resolved.dataTypes, List.find?_map] at found
        obtain ⟨declared, here, -⟩ := Option.map_eq_some_iff.mp found
        have named : declared.name = name := by simpa using List.find?_some here
        exact named ▸ List.mem_map_of_mem (List.mem_of_find?_eq_some here)
      · intro shadowed
        rw [answers.sameParameters] at shadowed
        obtain ⟨parameter, inScope, named⟩ := List.mem_map.mp shadowed
        have hides := List.any_eq_false.mp unshadowed parameter inScope
        exact hides (by simpa using named)

theorem resolved_signals (resolved : ResolvedObject table known rawObject d ctx)
    (raw : Surface.Transition) (t : Transition) (info : TriggerInfo)
    (answers : ResolvedTransition ctx raw t info) (interface name : String) (payload : Expr)
    (inBody : .emit interface name payload ∈ t.body) :
    ∃ i s, d.interface? known interface = some i ∧ i.signal? name = some s := by
  obtain ⟨rawStatement, -, becomes⟩ :=
    forall₂_mem_right (body_resolved ctx _ _ _ t.body answers.bodied) _ inBody
  cases becomes with
  | emit member found _ => exact ⟨_, _, resolved_interface? resolved _ member, found⟩

theorem resolved_transition (resolved : ResolvedObject table known rawObject d ctx)
    (raw : Surface.Transition) (t : Transition) (info : TriggerInfo)
    (answers : ResolvedTransition ctx raw t info) : d.WellFormedTransition known raw t where
  source := resolved.sameStates ▸ state_named ctx raw.source t.source answers.source
  target := resolved.sameStates ▸ state_named ctx raw.target t.target answers.target
  trigger := resolved_resolves resolved raw t info answers
  replies := resolved_replies raw t info answers
  answers := by
    intro onMethod
    have becomes := body_resolved ctx _ _ raw.body t.body answers.bodied
    have written := answers.answered (answers.sameTrigger ▸ onMethod)
    exact List.any_eq_true.mp ((body_answers ctx _ _ raw.body t.body becomes).trans written)
  assigns := resolved_assigns resolved raw t info answers
  emits := resolved_signals resolved raw t info answers

theorem resolved_wellFormed (resolved : ResolvedObject table known rawObject d ctx) :
    d.WellFormed known rawObject := by
  have typed := resolved_typed table known rawObject d ctx resolved
  have linked := resolved_linked resolved
  have inRange := Definition.resolved_inRange table known rawObject d ctx resolved
  obtain ⟨named, distinct⟩ := states_ok rawObject.states [] ctx.states .nil resolved.stated
  constructor
  · exact ⟨resolved.samePath, resolved.samePath ▸ resolved.validPath⟩
  · rw [resolved.sameStates]
    refine ⟨?_, distinct, by simpa using named⟩
    exact List.length_pos_iff.mp (resolved.sameStates ▸ inRange.initial)
  · exact typed.distinct
  · intro v member
    exact Expr.variableNames_closed v.initializer v.ty (typed.initializers v member)
  · exact linked.distinct
  · exact linked.described
  · apply resolved.written.imp
    rintro raw t ⟨info, answers⟩
    exact resolved_transition resolved raw t info answers
  · exact resolved.unrepeated

end Resolution

end SimBus
