import SimBus.Proofs.ObjectAnswers
/-!
What an object announces about its properties. It compares the values that its
readable properties had and have, which are the same properties in the same
order, and groups the ones that differ: there is one signal for an interface at
most, and it lists just the properties of that interface that differ.
-/

namespace SimBus

namespace Environment

def valueOf (env : Environment) (name : String) : Value :=
  match env.lookup name with
  | .ok value => value
  | .error _ => .unit

def binds (env : Environment) (name : String) : Bool := (env.binding? name).isSome

def differs (before after : Environment) (name : String) : Bool :=
  !(before.valueOf name == after.valueOf name)

theorem binds_frame (env after : Environment) (same : after.frame = env.frame) (name : String) :
    after.binds name = env.binds name := by
  have names (env : Environment) : env.binds name = env.frame.any (·.1 == name) := by
    rw [Bool.eq_iff_iff]
    simp [binds, binding?, frame, Binding.frame]
  rw [names after, names env, same]

end Environment

namespace Object

/-- The readable properties with a variable behind them, each with its interface. -/
def exposed (o : Object) : List (String × String) :=
  (o.definition.interfaces.filterMap o.known.find?).flatMap fun i =>
    (i.properties.filter fun p => p.access.readable && o.env.binds p.name).map fun p =>
      (i.name, p.name)

theorem readableValues_eq_map (o : Object) (i : Interface) : o.readableValues i =
    (i.properties.filter fun p => p.access.readable && o.env.binds p.name).map fun p =>
      (p.name, o.env.valueOf p.name) := by
  unfold readableValues
  induction i.properties with
  | nil => rfl
  | cons p rest ih =>
      cases readable : p.access.readable with
      | false => simpa [readable] using ih
      | true =>
          cases bound : o.env.binding? p.name with
          | none => simpa [readable, Environment.lookup, Environment.binds, bound] using ih
          | some b =>
              simpa [readable, Environment.lookup, Environment.binds, Environment.valueOf, bound]
                using ih

theorem exposedValues_eq_map (o : Object) :
    o.exposedValues = o.exposed.map fun s => (s.1, s.2, o.env.valueOf s.2) := by
  simp only [exposedValues, exposed, List.map_flatMap, readableValues_eq_map, List.map_map]
  rfl

theorem exposed_frame (o after : Object) (definition : after.definition = o.definition)
    (known : after.known = o.known) (frame : after.env.frame = o.env.frame) :
    after.exposed = o.exposed := by
  simp only [exposed, definition, known, Environment.binds_frame o.env after.env frame]

/-! Grouping. -/

theorem lookup_addChange (interface : String) (entry : Value × Value)
    (groups : List (String × List (Value × Value))) (other : String) :
    ((addChange interface entry groups).lookup other).getD [] =
      (groups.lookup other).getD [] ++ if interface = other then [entry] else [] := by
  induction groups with
  | nil =>
      by_cases same : interface = other
      · simp [addChange, same]
      · have apart : (other == interface) = false := beq_eq_false_iff_ne.mpr (Ne.symm same)
        simp [addChange, List.lookup_cons, same, apart]
  | cons group rest ih =>
      obtain ⟨name, entries⟩ := group
      by_cases here : name = interface
      · subst here
        by_cases same : name = other
        · simp [addChange, same]
        · have apart : (other == name) = false := beq_eq_false_iff_ne.mpr (Ne.symm same)
          simp [addChange, List.lookup_cons, same, apart]
      · by_cases named : other = name
        · have differs : interface ≠ other := fun same => here (named ▸ same.symm)
          simp [addChange, here, named, Ne.symm here]
        · have differs : (other == name) = false := by simpa using named
          simpa [addChange, List.lookup_cons, here, differs] using ih

structure Grouped (groups : List (String × List (Value × Value))) : Prop where
  distinct : (groups.map Prod.fst).Nodup
  inhabited : ∀ group ∈ groups, group.2 ≠ []

theorem addChange_names (interface : String) (entry : Value × Value)
    (groups : List (String × List (Value × Value))) (name : String)
    (member : name ∈ (addChange interface entry groups).map Prod.fst) :
    name = interface ∨ name ∈ groups.map Prod.fst := by
  induction groups with
  | nil => exact .inl (by simpa [addChange] using member)
  | cons group rest ih =>
      unfold addChange at member
      split at member
      · exact .inr (by simpa using member)
      · rcases List.mem_cons.mp member with rfl | later
        · exact .inr List.mem_cons_self
        · exact (ih later).imp_right (List.mem_cons_of_mem _)

theorem addChange_grouped (interface : String) (entry : Value × Value)
    (groups : List (String × List (Value × Value))) (grouped : Grouped groups) :
    Grouped (addChange interface entry groups) := by
  induction groups with
  | nil => exact ⟨by simp [addChange], by simp [addChange]⟩
  | cons group rest ih =>
      obtain ⟨name, entries⟩ := group
      obtain ⟨fresh, distinct⟩ := List.nodup_cons.mp grouped.distinct
      obtain ⟨own, inhabited⟩ := List.forall_mem_cons.mp grouped.inhabited
      have later := ih ⟨distinct, inhabited⟩
      unfold addChange
      split
      · exact ⟨grouped.distinct, List.forall_mem_cons.mpr ⟨by simp, inhabited⟩⟩
      · next differs =>
          refine ⟨List.nodup_cons.mpr ⟨fun old => ?_, later.distinct⟩,
            List.forall_mem_cons.mpr ⟨own, later.inhabited⟩⟩
          rcases addChange_names interface entry rest name old with same | old
          · exact differs same
          · exact fresh old

theorem lookup_of_mem (groups : List (String × List (Value × Value))) (interface : String)
    (entries : List (Value × Value)) (distinct : (groups.map Prod.fst).Nodup)
    (member : (interface, entries) ∈ groups) : groups.lookup interface = some entries := by
  induction groups with
  | nil => cases member
  | cons group rest ih =>
      obtain ⟨name, own⟩ := group
      obtain ⟨fresh, distinct⟩ := List.nodup_cons.mp distinct
      rcases List.mem_cons.mp member with here | later
      · obtain ⟨rfl, rfl⟩ := Prod.mk.inj here
        exact List.lookup_cons_self
      · have listed : interface ∈ rest.map Prod.fst := List.mem_map.mpr ⟨_, later, rfl⟩
        have differs : (interface == name) = false :=
          beq_eq_false_iff_ne.mpr fun same => fresh (same ▸ listed)
        rw [List.lookup_cons, differs]
        exact ih distinct later

theorem mem_of_lookup (groups : List (String × List (Value × Value))) (interface : String)
    (entries : List (Value × Value)) (found : groups.lookup interface = some entries) :
    (interface, entries) ∈ groups := by
  obtain ⟨before, later, rfl, -⟩ := List.lookup_eq_some_iff.mp found
  simp

theorem mem_grouped_iff (groups : List (String × List (Value × Value))) (grouped : Grouped groups)
    (interface : String) (entries : List (Value × Value)) : (interface, entries) ∈ groups ↔
      entries = (groups.lookup interface).getD [] ∧ entries ≠ [] := by
  constructor
  · intro member
    have found := lookup_of_mem groups interface entries grouped.distinct member
    exact ⟨by simp [found], grouped.inhabited _ member⟩
  · rintro ⟨rfl, inhabited⟩
    cases found : groups.lookup interface with
    | none => simp [found] at inhabited
    | some entries => exact mem_of_lookup groups interface entries found

/-! Comparing. -/

/-- The entries for the properties of an interface whose values differ. -/
def differences (before after : Object) (interface : String) : List (Value × Value) :=
  (before.exposed.filter fun s => s.1 == interface && before.env.differs after.env s.2).map
    fun s => propertyEntry s.2 (after.env.valueOf s.2)

theorem changes_grouped (before after : Environment) (properties : List (String × String))
    (sofar : List (String × List (Value × Value))) (grouped : Grouped sofar) :
    let all := changes (properties.map fun s => (s.1, s.2, before.valueOf s.2))
      (properties.map fun s => (s.1, s.2, after.valueOf s.2)) sofar
    Grouped all ∧ ∀ interface, (all.lookup interface).getD [] = (sofar.lookup interface).getD [] ++
      (properties.filter fun s => s.1 == interface && before.differs after s.2).map
        fun s => propertyEntry s.2 (after.valueOf s.2) := by
  induction properties generalizing sofar with
  | nil => exact ⟨grouped, by simp [changes]⟩
  | cons s rest ih =>
      obtain ⟨own, name⟩ := s
      cases same : before.valueOf name == after.valueOf name with
      | true =>
          obtain ⟨groups, listed⟩ := ih sofar grouped
          simp only [List.map_cons, changes, same, ↓reduceIte]
          refine ⟨groups, fun interface => ?_⟩
          simp [listed interface, Environment.differs, same]
      | false =>
          obtain ⟨groups, listed⟩ := ih _ (addChange_grouped own
            (propertyEntry name (after.valueOf name)) sofar grouped)
          simp only [List.map_cons, changes, same, Bool.false_eq_true, ↓reduceIte]
          refine ⟨groups, fun interface => ?_⟩
          rw [listed interface, lookup_addChange]
          by_cases here : own = interface <;> simp [here, Environment.differs, same]

/-- There is one group for each interface with a difference, and it holds the
differences of this interface. -/
theorem mem_changes_iff (before after : Object) (same : after.exposed = before.exposed)
    (interface : String) (entries : List (Value × Value)) :
    (interface, entries) ∈ changes before.exposedValues after.exposedValues [] ↔
      entries = differences before after interface ∧ entries ≠ [] := by
  obtain ⟨grouped, listed⟩ := changes_grouped before.env after.env before.exposed [] ⟨.nil, by simp⟩
  rw [exposedValues_eq_map, exposedValues_eq_map, same, mem_grouped_iff _ grouped, listed]
  rfl

theorem changes_distinct (before after : Object) (same : after.exposed = before.exposed) :
    ((changes before.exposedValues after.exposedValues []).map Prod.fst).Nodup := by
  rw [exposedValues_eq_map, exposedValues_eq_map, same]
  exact (changes_grouped before.env after.env before.exposed [] ⟨.nil, by simp⟩).1.distinct

end Object

end SimBus
