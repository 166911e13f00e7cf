import SimBus.Proofs.WellFormedDefinitions
import SimBus.Proofs.WrittenReads
/-!
Which warnings a program gets. Data is warned about when no interface shows it and
nothing that is written uses it, a method when no transition is triggered by it, and
a transition when its trigger is a property that cannot be written.
-/

namespace SimBus

namespace Concern

def isIdle : Concern → Bool
  | neverFires _ => true
  | unusedData _ | unhandledMethod _ _ => false

end Concern

namespace Definition

def isReadOnly (d : Definition) (known : InterfaceSet) : Trigger → Bool
  | .property interface name =>
      match (d.interface? known interface).bind (·.property? name) with
      | some p => !p.access.writable
      | none => false
  | .method _ _ | .arbitrary => false

/-- A written transition assigns the data, or reads it and not a parameter of that name. -/
def Uses (d : Definition) (rawObject : Surface.Object) (name : String) : Prop :=
  ∃ entry ∈ rawObject.transitions.zip d.transitions,
    entry.1.Assigns name ∨ entry.1.ReadsData entry.2.parameters name

/-- The transitions on properties that cannot be written, each with what was written. -/
def idle (d : Definition) (known : InterfaceSet) (rawObject : Surface.Object) :
    List (Surface.Transition × Transition) :=
  (rawObject.transitions.zip d.transitions).filter fun entry => d.isReadOnly known entry.2.trigger

/-- The warnings are about the definition, and there is one for each thing that calls for it. -/
structure Warned (known : InterfaceSet) (rawObject : Surface.Object) (d : Definition)
    (warnings : List Warning) : Prop where
  own : ∀ w ∈ warnings, w.object = d.path
  unused : ∀ position name, ⟨d.path, position, .unusedData name⟩ ∈ warnings ↔
    (∃ v ∈ d.data, v.name = name ∧ v.position = position) ∧
      (∀ i ∈ d.implemented known, ∀ p ∈ i.properties, p.name ≠ name) ∧ ¬ d.Uses rawObject name
  unhandled : ∀ position interface method,
    ⟨d.path, position, .unhandledMethod interface method⟩ ∈ warnings ↔
      position = d.position ∧
        (∃ i ∈ d.implemented known, i.name = interface ∧ ∃ m ∈ i.methods, m.name = method) ∧
          ∀ t ∈ d.transitions, t.trigger ≠ .method interface method
  idle : (warnings.filter fun w => w.concern.isIdle) = (d.idle known rawObject).map fun entry =>
    ⟨d.path, entry.1.triggerPosition, .neverFires (Resolution.memberName entry.2.trigger)⟩

theorem usesData_iff (d : Definition) (name : String) :
    d.usesData name = true ↔ ∃ t ∈ d.transitions, name ∈ t.usedData := by
  simp [usesData, List.any_eq_true]

theorem handles_iff (d : Definition) (interface method : String) :
    d.handles interface method = true ↔
      ∃ t ∈ d.transitions, t.trigger = .method interface method := by
  simp [handles, List.any_eq_true]

theorem exposed_iff (interfaces : List Interface) (name : String) :
    (interfaces.any fun i => (i.property? name).isSome) = true ↔
      ∃ i ∈ interfaces, ∃ p ∈ i.properties, p.name = name := by
  simp [List.any_eq_true, Interface.property?, List.find?_isSome]

theorem mem_unusedData_iff (d : Definition) (interfaces : List Interface) (w : Warning) :
    w ∈ d.unusedData interfaces ↔ ∃ v ∈ d.data, w = ⟨d.path, v.position, .unusedData v.name⟩ ∧
      ¬ (∃ i ∈ interfaces, ∃ p ∈ i.properties, p.name = v.name) ∧
        ¬ ∃ t ∈ d.transitions, v.name ∈ t.usedData := by
  rw [unusedData, List.mem_map]
  constructor
  · rintro ⟨v, kept, rfl⟩
    obtain ⟨member, plain⟩ := List.mem_filter.mp kept
    rw [Bool.and_eq_true, Bool.not_eq_true', Bool.not_eq_true', ← Bool.not_eq_true,
      ← Bool.not_eq_true, exposed_iff, usesData_iff] at plain
    exact ⟨v, member, rfl, plain⟩
  · rintro ⟨v, member, rfl, plain⟩
    refine ⟨v, List.mem_filter.mpr ⟨member, ?_⟩, rfl⟩
    rwa [Bool.and_eq_true, Bool.not_eq_true', Bool.not_eq_true', ← Bool.not_eq_true,
      ← Bool.not_eq_true, exposed_iff, usesData_iff]

theorem mem_unhandledMethods_iff (d : Definition) (interfaces : List Interface) (w : Warning) :
    w ∈ d.unhandledMethods interfaces ↔ ∃ i ∈ interfaces, ∃ m ∈ i.methods,
      w = ⟨d.path, d.position, .unhandledMethod i.name m.name⟩ ∧
        ¬ ∃ t ∈ d.transitions, t.trigger = .method i.name m.name := by
  simp only [unhandledMethods, List.mem_flatMap, List.mem_map, List.mem_filter]
  constructor
  · rintro ⟨i, member, m, ⟨inMethods, plain⟩, rfl⟩
    rw [Bool.not_eq_true', ← Bool.not_eq_true, handles_iff] at plain
    exact ⟨i, member, m, inMethods, rfl, plain⟩
  · rintro ⟨i, member, m, inMethods, rfl, plain⟩
    refine ⟨i, member, m, ⟨inMethods, ?_⟩, rfl⟩
    rwa [Bool.not_eq_true', ← Bool.not_eq_true, handles_iff]

theorem unusedData_not_idle (d : Definition) (interfaces : List Interface) :
    (d.unusedData interfaces).filter (fun w => w.concern.isIdle) = [] := by
  apply List.filter_eq_nil_iff.mpr
  intro w member
  obtain ⟨v, -, rfl, -⟩ := (mem_unusedData_iff d interfaces w).mp member
  simp [Concern.isIdle]

theorem unhandledMethods_not_idle (d : Definition) (interfaces : List Interface) :
    (d.unhandledMethods interfaces).filter (fun w => w.concern.isIdle) = [] := by
  apply List.filter_eq_nil_iff.mpr
  intro w member
  obtain ⟨i, -, m, -, rfl, -⟩ := (mem_unhandledMethods_iff d interfaces w).mp member
  simp [Concern.isIdle]

end Definition

namespace Resolution

variable {table : BuiltinTable} {known : InterfaceSet} {rawObject : Surface.Object}
  {d : Definition} {ctx : Context}

theorem resolved_neverFires (resolved : ResolvedObject table known rawObject d ctx)
    {raw : Surface.Transition} {t : Transition} {info : TriggerInfo}
    (answers : ResolvedTransition ctx raw t info) :
    info.neverFires = d.isReadOnly known t.trigger := by
  have triggered := trigger_resolved ctx _ _ info answers.triggered
  generalize raw.trigger = rawTrigger at triggered
  rw [answers.sameTrigger]
  cases triggered with
  | method | arbitrary => rfl
  | property member found _ =>
      simp [Definition.isReadOnly, resolved_interface? resolved _ member, found]

theorem forall₂_mem_zip {α β : Type} {related : α → β → Prop} {left : List α} {right : List β}
    (all : List.Forall₂ related left right) :
    ∀ entry ∈ left.zip right, related entry.1 entry.2 := by
  induction all with
  | nil => simp
  | cons here _ ih =>
      rw [List.zip_cons_cons]
      exact List.forall_mem_cons.mpr ⟨here, ih⟩

theorem resolved_exists_iff (resolved : ResolvedObject table known rawObject d ctx)
    {holds : Transition → Prop} :
    (∃ t ∈ d.transitions, holds t) ↔
      ∃ entry ∈ rawObject.transitions.zip d.transitions, holds entry.2 := by
  have all : (rawObject.transitions.zip d.transitions).map Prod.snd = d.transitions :=
    List.map_snd_zip resolved.written.length_eq.ge
  constructor
  · rintro ⟨t, member, holds⟩
    rw [← all] at member
    obtain ⟨entry, inZip, rfl⟩ := List.mem_map.mp member
    exact ⟨entry, inZip, holds⟩
  · rintro ⟨entry, member, holds⟩
    exact ⟨entry.2, (List.of_mem_zip member).2, holds⟩

theorem resolved_uses (resolved : ResolvedObject table known rawObject d ctx) (name : String) :
    (∃ t ∈ d.transitions, name ∈ t.usedData) ↔ d.Uses rawObject name := by
  rw [resolved_exists_iff resolved, Definition.Uses]
  apply exists_congr
  intro entry
  apply and_congr_right
  intro member
  obtain ⟨info, answers⟩ := forall₂_mem_zip resolved.written entry member
  exact usedData_iff answers

theorem resolved_idle (resolved : ResolvedObject table known rawObject d ctx) (path : String) :
    rawObject.transitions.flatMap (idleWarnings ctx path) =
      (d.idle known rawObject).map fun entry =>
        ⟨path, entry.1.triggerPosition, .neverFires (memberName entry.2.trigger)⟩ := by
  have written := resolved.written
  unfold Definition.idle
  generalize rawObject.transitions = raws at written
  generalize d.transitions = transitions at written
  induction written with
  | nil => rfl
  | @cons raw t _ _ answered _ ih =>
      obtain ⟨info, answers⟩ := answered
      rw [List.flatMap_cons, ih, answers.idleWarnings path, List.zip_cons_cons, List.filter_cons,
        resolved_neverFires resolved answers]
      split <;> simp

/-- The warnings about a resolved object are exactly those that it calls for. -/
theorem report_warned {warnings : List Warning}
    (report : ResolvedReport table known rawObject d warnings) :
    d.Warned known rawObject warnings := by
  obtain ⟨ctx, resolved, rfl⟩ := report
  rw [← resolved_implemented resolved, resolved_idle resolved, ← resolved.samePath]
  constructor
  · simp only [List.mem_append, List.mem_map, Definition.mem_unusedData_iff,
      Definition.mem_unhandledMethods_iff]
    rintro w ((⟨entry, -, rfl⟩ | ⟨v, -, rfl, -⟩) | ⟨i, -, m, -, rfl, -⟩) <;> rfl
  · intro position name
    simp only [List.mem_append, List.mem_map, Definition.mem_unusedData_iff,
      Definition.mem_unhandledMethods_iff, resolved_uses resolved]
    constructor
    · rintro ((⟨entry, -, same⟩ | ⟨v, member, same, hidden, unused⟩) | ⟨i, -, m, -, same, -⟩)
      · cases same
      · cases same
        refine ⟨⟨v, member, rfl, rfl⟩, fun i implemented p property named => ?_, unused⟩
        exact hidden ⟨i, implemented, p, property, named⟩
      · cases same
    · rintro ⟨⟨v, member, rfl, rfl⟩, hidden, unused⟩
      refine .inl (.inr ⟨v, member, rfl, ?_, unused⟩)
      rintro ⟨i, implemented, p, property, named⟩
      exact hidden i implemented p property named
  · intro position interface method
    simp only [List.mem_append, List.mem_map, Definition.mem_unusedData_iff,
      Definition.mem_unhandledMethods_iff]
    constructor
    · rintro ((⟨entry, -, same⟩ | ⟨v, -, same, -⟩) | ⟨i, implemented, m, member, same, unhandled⟩)
      · cases same
      · cases same
      · cases same
        refine ⟨rfl, ⟨i, implemented, rfl, m, member, rfl⟩, fun t inTransitions triggered => ?_⟩
        exact unhandled ⟨t, inTransitions, triggered⟩
    · rintro ⟨rfl, ⟨i, implemented, rfl, m, member, rfl⟩, unhandled⟩
      refine .inr ⟨i, implemented, m, member, rfl, ?_⟩
      rintro ⟨t, inTransitions, triggered⟩
      exact unhandled t inTransitions triggered
  · rw [List.filter_append, List.filter_append, Definition.unusedData_not_idle,
      Definition.unhandledMethods_not_idle, List.append_nil, List.append_nil]
    apply List.filter_eq_self.mpr
    intro w member
    obtain ⟨entry, -, rfl⟩ := List.mem_map.mp member
    rfl

end Resolution

end SimBus
