import SimBus.Proofs.TypedDefinitions
/-!
The members that an accepted definition refers to. Triggers name methods and
properties, and signals are emitted, of interfaces that the object implements;
a transition has the parameters of its trigger, and one on a method answers.
-/

namespace SimBus

namespace Statement

/-- Whether the statement answers the call, be it with an error. -/
def answers : Statement → Bool
  | reply _ | throw _ _ => true
  | assign _ _ | emit _ _ _ => false

end Statement

namespace Definition

def interface? (d : Definition) (known : InterfaceSet) (name : String) : Option Interface :=
  if name ∈ d.interfaces then known.find? name else none

theorem interface?_eq_some_iff (d : Definition) (known : InterfaceSet) (name : String)
    (i : Interface) :
    d.interface? known name = some i ↔ name ∈ d.interfaces ∧ known.find? name = some i := by
  simp [interface?]

/-- The trigger names a member of an implemented interface, and the transition
takes what comes with it. -/
def Listens (d : Definition) (known : InterfaceSet) (t : Transition) : Prop :=
  match t.trigger with
  | .method interface name => ∃ i m, d.interface? known interface = some i ∧
      i.method? name = some m ∧ t.parameters.map Prod.snd = Argument.types m.inputs
  | .property interface name => ∃ i p, d.interface? known interface = some i ∧
      i.property? name = some p ∧ t.parameters.map Prod.snd = [p.ty]
  | .arbitrary => t.parameters = []

structure Linked (known : InterfaceSet) (d : Definition) : Prop where
  distinct : d.interfaces.Nodup
  described : ∀ name ∈ d.interfaces, ∃ i, known.find? name = some i
  listens : ∀ t ∈ d.transitions, d.Listens known t
  answers : ∀ t ∈ d.transitions, Resolution.isMethod t.trigger = true →
    t.body.any Statement.answers = true
  emits : ∀ t ∈ d.transitions, ∀ interface name payload,
    .emit interface name payload ∈ t.body → interface ∈ d.interfaces

end Definition

namespace Resolution

theorem implemented_distinct (known : InterfaceSet) (names : List Surface.Name)
    (sofar final : List Interface) (before : (sofar.map Interface.name).Nodup)
    (accepted : implemented known names sofar = .ok final) : (final.map Interface.name).Nodup := by
  induction names generalizing sofar with
  | nil =>
      obtain rfl := Except.ok.inj accepted
      exact before
  | cons name rest ih =>
      unfold implemented at accepted
      split at accepted
      · cases accepted
      · next i _ =>
          refine ih _ ?_ accepted
          split
          · exact before
          · next fresh =>
              rw [List.map_append, List.nodup_append]
              refine ⟨before, List.nodup_singleton _, ?_⟩
              rintro name old _ new rfl
              obtain rfl := List.mem_singleton.mp new
              obtain ⟨j, member, same⟩ := List.mem_map.mp old
              exact fresh (List.any_eq_true.mpr ⟨j, member, by simpa using same⟩)

theorem parameters_types (arguments : List Argument) (place : Nat) :
    (parameters arguments place).map Prod.snd = Argument.types arguments := by
  induction arguments generalizing place with
  | nil => rfl
  | cons argument rest ih =>
      rw [parameters, List.map_cons, ih]
      rfl

theorem body_answers (ctx : Context) (scope : Scope) (reply : Option (List Ty))
    (raws : List Surface.Statement) (statements : List Statement)
    (become : List.Forall₂ (ResolvedStatement ctx scope reply) raws statements) :
    statements.any Statement.answers = raws.any Surface.Statement.answers := by
  induction become with
  | nil => rfl
  | @cons raw s _ _ becomes _ ih =>
      have same : s.answers = raw.answers := by cases becomes <;> rfl
      rw [List.any_cons, List.any_cons, same, ih]

variable {table : BuiltinTable} {known : InterfaceSet} {rawObject : Surface.Object}
  {d : Definition} {ctx : Context}

theorem resolved_interface? (resolved : ResolvedObject table known rawObject d ctx)
    (i : Interface) (member : i ∈ ctx.interfaces) : d.interface? known i.name = some i := by
  have found := implemented_known known rawObject.interfaces [] ctx.interfaces (by simp)
    resolved.implements i member
  have listed : i.name ∈ d.interfaces :=
    resolved.sameInterfaces ▸ List.mem_map_of_mem member
  exact (d.interface?_eq_some_iff known i.name i).mpr ⟨listed, found⟩

theorem resolved_listens (resolved : ResolvedObject table known rawObject d ctx)
    (raw : Surface.Transition) (t : Transition) (info : TriggerInfo)
    (answers : ResolvedTransition ctx raw t info) : d.Listens known t := by
  have triggered := trigger_resolved ctx _ _ info answers.triggered
  generalize raw.trigger = rawTrigger at triggered
  rw [Definition.Listens, answers.sameTrigger, answers.sameParameters]
  cases triggered with
  | @method _ i m member found _ =>
      exact ⟨i, m, resolved_interface? resolved i member, found, parameters_types _ _⟩
  | @property _ i p member found _ =>
      exact ⟨i, p, resolved_interface? resolved i member, found, rfl⟩
  | arbitrary => rfl

theorem resolved_emits (resolved : ResolvedObject table known rawObject d ctx)
    (raw : Surface.Transition) (t : Transition) (info : TriggerInfo)
    (answers : ResolvedTransition ctx raw t info) (interface name : String) (payload : Expr)
    (inBody : .emit interface name payload ∈ t.body) : interface ∈ d.interfaces := by
  obtain ⟨rawStatement, -, becomes⟩ :=
    forall₂_mem_right (body_resolved ctx _ _ _ t.body answers.bodied) _ inBody
  cases becomes with
  | emit member _ _ => exact resolved.sameInterfaces ▸ List.mem_map_of_mem member

theorem resolved_linked (resolved : ResolvedObject table known rawObject d ctx) :
    d.Linked known := by
  refine ⟨?_, ?_, ?_, ?_, ?_⟩
  · rw [resolved.sameInterfaces]
    exact implemented_distinct known rawObject.interfaces [] ctx.interfaces (by simp)
      resolved.implements
  · intro name listed
    rw [resolved.sameInterfaces] at listed
    obtain ⟨i, member, rfl⟩ := List.mem_map.mp listed
    exact ⟨i, implemented_known known rawObject.interfaces [] ctx.interfaces (by simp)
      resolved.implements i member⟩
  · intro t member
    obtain ⟨raw, info, answers⟩ := resolved.transitions t member
    exact resolved_listens resolved raw t info answers
  · intro t member onMethod
    obtain ⟨raw, info, answers⟩ := resolved.transitions t member
    rw [body_answers ctx _ _ raw.body t.body (body_resolved ctx _ _ _ _ answers.bodied)]
    exact answers.answered (answers.sameTrigger ▸ onMethod)
  · intro t member interface name payload inBody
    obtain ⟨raw, info, answers⟩ := resolved.transitions t member
    exact resolved_emits resolved raw t info answers interface name payload inBody

end Resolution

end SimBus
