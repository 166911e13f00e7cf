import SimBus.Proofs.ObjectRuns
import SimBus.Proofs.BusTables
/-!
Registrations that are refused. Such a registration gives back the path and the
names that it had claimed before the refusal, and the object stays what it was. The
bus is then exactly as before unless one of these names belonged to the path
already: names are released by name, so this one is lost with the others.
-/

namespace SimBus

namespace Bus

def grants (bus : Bus) (owner name : String) : Bool := (bus.requestName name owner).isOk

/-- The names before the first one that cannot be claimed. -/
def granted (bus : Bus) (owner : String) (names : List String) : List String :=
  names.takeWhile (bus.grants owner)

variable {bus after : Bus} {owner name : String}

theorem requestName_ok_iff : bus.requestName name owner = .ok after ↔
    name ∉ bus.refused ∧
      ((bus.owner? name = none ∧ after = { bus with names := (name, owner) :: bus.names }) ∨
        (bus.owner? name = some owner ∧ after = bus)) := by
  unfold requestName
  by_cases refused : name ∈ bus.refused
  · simp [refused]
  · cases owned : bus.owner? name with
    | none => simp [refused, eq_comm]
    | some current =>
        by_cases same : current = owner
        · simp [refused, same, eq_comm]
        · simp [refused, same]

theorem grants_iff : bus.grants owner name = true ↔
    name ∉ bus.refused ∧ (bus.owner? name = none ∨ bus.owner? name = some owner) := by
  have granted :
      bus.grants owner name = true ↔ ∃ after, bus.requestName name owner = .ok after := by
    unfold grants
    cases bus.requestName name owner with
    | error e => simp [Except.isOk, Except.toBool]
    | ok after => simp [Except.isOk, Except.toBool]
  rw [granted]
  constructor
  · rintro ⟨after, requested⟩
    obtain ⟨allowed, ⟨unowned, -⟩ | ⟨owned, -⟩⟩ := requestName_ok_iff.mp requested
    · exact ⟨allowed, .inl unowned⟩
    · exact ⟨allowed, .inr owned⟩
  · rintro ⟨allowed, unowned | owned⟩
    · exact ⟨_, requestName_ok_iff.mpr ⟨allowed, .inl ⟨unowned, rfl⟩⟩⟩
    · exact ⟨_, requestName_ok_iff.mpr ⟨allowed, .inr ⟨owned, rfl⟩⟩⟩

theorem granted_free {names : List String} (name : String)
    (member : name ∈ bus.granted owner names) :
    bus.owner? name = none ∨ bus.owner? name = some owner :=
  (grants_iff.mp (List.mem_takeWhile_imp member)).2

theorem requestName_grants (requested : bus.requestName name owner = .ok after) :
    after.grants owner = bus.grants owner := by
  funext other
  rw [Bool.eq_iff_iff, grants_iff, grants_iff]
  obtain ⟨-, ⟨unowned, rfl⟩ | ⟨-, rfl⟩⟩ := requestName_ok_iff.mp requested
  · have added : owner? { bus with names := (name, owner) :: bus.names } other =
        if other = name then some owner else bus.owner? other :=
      lookup_put name other owner bus.names
    rw [added]
    by_cases here : other = name
    · simp [here, unowned]
    · simp [here]
  · rfl

theorem releaseNames_eq (bus : Bus) (names : List String) :
    bus.releaseNames names = { bus with names := bus.names.filter (·.1 ∉ names) } := by
  unfold releaseNames
  induction names generalizing bus with
  | nil => simp
  | cons first rest ih =>
      rw [List.foldl_cons, ih, releaseName, remove, List.filter_filter]
      congr 1
      apply List.filter_congr
      intro entry _
      by_cases here : entry.1 = first
      · simp [here]
      · simp [here]

theorem releaseNames_owner? (bus : Bus) (names : List String) (name : String) :
    (bus.releaseNames names).owner? name = if name ∈ names then none else bus.owner? name :=
  (releaseNames_freed bus names "").owners name

theorem remove_absent {α : Type} (key : String) (table : List (String × α))
    (absent : table.lookup key = none) : remove key table = table := by
  apply List.filter_eq_self.mpr
  intro entry member
  have differs := List.lookup_eq_none_iff.mp absent entry member
  simpa [bne, Bool.beq_comm] using differs

theorem releaseNames_unowned (bus : Bus) (names : List String)
    (unowned : ∀ name ∈ names, bus.owner? name = none) : bus.releaseNames names = bus := by
  unfold releaseNames
  induction names with
  | nil => rfl
  | cons first rest ih =>
      obtain ⟨here, later⟩ := List.forall_mem_cons.mp unowned
      have same : bus.releaseName first = bus := by
        rw [releaseName, remove_absent first bus.names here]
      rw [List.foldl_cons, same]
      exact ih later

end Bus

namespace Object

theorem claimNames_granted (owner : String) (names sofar : List String) (bus after : Bus)
    (result : Except (RegistrationError × List String) (List String))
    (claims : claimNames owner names sofar bus = (result, after)) :
    (∃ added, after = { bus with names := added ++ bus.names } ∧
        ∀ entry ∈ added, entry.1 ∈ bus.granted owner names) ∧
      ∀ e claimed, result = .error (e, claimed) → claimed = sofar ++ bus.granted owner names := by
  induction names generalizing sofar bus with
  | nil =>
      obtain ⟨rfl, rfl⟩ := Prod.mk.inj claims
      exact ⟨⟨[], rfl, by simp⟩, by simp⟩
  | cons name rest ih =>
      unfold claimNames at claims
      cases requested : bus.requestName name owner with
      | error e =>
          have refused : bus.granted owner (name :: rest) = [] := by
            simp [Bus.granted, Bus.grants, requested, Except.isOk, Except.toBool]
          simp only [requested] at claims
          obtain ⟨rfl, rfl⟩ := Prod.mk.inj claims
          refine ⟨⟨[], rfl, by simp⟩, ?_⟩
          rintro e' claimed same
          simp [refused, (Prod.mk.inj (Except.error.inj same)).2]
      | ok middle =>
          have first : bus.granted owner (name :: rest) = name :: middle.granted owner rest := by
            rw [Bus.granted, Bus.granted, Bus.requestName_grants requested]
            simp [Bus.grants, requested, Except.isOk, Except.toBool]
          simp only [requested] at claims
          obtain ⟨⟨added, rfl, among⟩, refusal⟩ := ih (sofar ++ [name]) middle claims
          rw [first]
          constructor
          · obtain ⟨-, ⟨-, rfl⟩ | ⟨-, rfl⟩⟩ := Bus.requestName_ok_iff.mp requested
            · refine ⟨added ++ [(name, owner)], by simp, ?_⟩
              intro entry member
              rcases List.mem_append.mp member with earlier | here
              · exact List.mem_cons_of_mem name (among entry earlier)
              · simp [List.mem_singleton.mp here]
            · exact ⟨added, rfl, fun entry member => List.mem_cons_of_mem name (among entry member)⟩
          · intro e claimed same
            rw [refusal e claimed same, List.append_assoc, List.singleton_append]

theorem register_refused_eq (o : Object) (bus busAfter : Bus) (e : RegistrationError)
    (registers : o.register bus = (.error e, busAfter)) :
    busAfter = bus ∨ bus.interfacesAt? o.path = none ∧
      busAfter = bus.releaseNames (bus.granted o.path o.definition.names) := by
  unfold register at registers
  split at registers
  · exact .inl (Prod.mk.inj registers).2.symm
  · cases unused : bus.interfacesAt? o.path with
    | some interfaces =>
        simp only [Bus.registerObject, unused] at registers
        exact .inl (Prod.mk.inj registers).2.symm
    | none =>
        simp only [Bus.registerObject, unused] at registers
        split at registers
        · cases registers
        · next refusal claimed middle claims =>
            obtain ⟨-, rfl⟩ := Prod.mk.inj registers
            obtain ⟨⟨added, rfl, among⟩, refused⟩ := claimNames_granted _ _ _ _ _ _ claims
            have placed : Bus.granted { bus with objects := (o.path, o.exported) :: bus.objects }
                o.path o.definition.names = bus.granted o.path o.definition.names := by
              unfold Bus.granted
              congr 1
              funext name
              rw [Bool.eq_iff_iff, Bus.grants_iff, Bus.grants_iff]
              rfl
            have names : claimed = bus.granted o.path o.definition.names := by
              rw [refused _ _ rfl, List.nil_append]
              exact placed
            -- What was added are entries for these names, which go again.
            have nothing : added.filter (·.1 ∉ claimed) = [] := by
              apply List.filter_eq_nil_iff.mpr
              intro entry member
              simpa [names] using placed ▸ among entry member
            refine .inr ⟨rfl, ?_⟩
            rw [Bus.releaseNames_eq, Bus.releaseNames_eq, Bus.unregisterObject, List.filter_append,
              nothing, List.nil_append, names]
            congr 1
            have own := Bus.remove_absent o.path bus.objects unused
            simpa [Bus.remove] using own

theorem granted_unowned (o : Object) (bus : Bus)
    (others : ∀ name ∈ bus.granted o.path o.definition.names, bus.owner? name ≠ some o.path) :
    bus.releaseNames (bus.granted o.path o.definition.names) = bus := by
  apply Bus.releaseNames_unowned
  intro name member
  exact (Bus.granted_free name member).resolve_right (others name member)

/-- A refused registration leaves the bus as it was, provided that nothing belongs to a
path that is not in use. -/
theorem register_refused (o : Object) (bus busAfter : Bus) (e : RegistrationError)
    (unowned : bus.interfacesAt? o.path = none → ∀ name, bus.owner? name ≠ some o.path)
    (registers : o.register bus = (.error e, busAfter)) : busAfter = bus := by
  rcases register_refused_eq o bus busAfter e registers with same | ⟨unused, released⟩
  · exact same
  · rw [released, granted_unowned o bus fun name _ => unowned unused name]

/-- An attempt to register. An object that is refused stays what it was. -/
def attemptRegistration (o : Object) (bus : Bus) : Except RegistrationError Unit × Object × Bus :=
  match o.register bus with
  | (.ok after, busAfter) => (.ok (), after, busAfter)
  | (.error e, busAfter) => (.error e, o, busAfter)

theorem attempt_error_iff (o after : Object) (bus busAfter : Bus) (e : RegistrationError) :
    o.attemptRegistration bus = (.error e, after, busAfter) ↔
      after = o ∧ o.register bus = (.error e, busAfter) := by
  unfold attemptRegistration
  rcases o.register bus with ⟨_ | _, _⟩
  · simp [eq_comm, and_left_comm]
  · simp

theorem attempt_ok_iff (o after : Object) (bus busAfter : Bus) :
    o.attemptRegistration bus = (.ok (), after, busAfter) ↔
      o.register bus = (.ok after, busAfter) := by
  unfold attemptRegistration
  rcases o.register bus with ⟨_ | _, _⟩
  · simp
  · simp

/-- A refused registration leaves the object and the object table as they were, and
so the whole bus, if none of the names that it had claimed belonged to the path
before. Any name that is lost is one of those. -/
theorem refusal_rolledBack (o after : Object) (bus busAfter : Bus) (e : RegistrationError)
    (attempts : o.attemptRegistration bus = (.error e, after, busAfter)) :
    after = o ∧ busAfter.objects = bus.objects ∧
      ((∀ name ∈ bus.granted o.path o.definition.names, bus.owner? name ≠ some o.path) →
        busAfter = bus) ∧
      ∀ name, busAfter.owner? name = bus.owner? name ∨
        (busAfter.owner? name = none ∧ bus.owner? name = some o.path ∧
          name ∈ bus.granted o.path o.definition.names) := by
  obtain ⟨rfl, registers⟩ := (attempt_error_iff o after bus busAfter e).mp attempts
  refine ⟨rfl, ?_⟩
  rcases register_refused_eq after bus busAfter e registers with rfl | ⟨-, rfl⟩
  · exact ⟨rfl, fun _ => rfl, fun _ => .inl rfl⟩
  · refine ⟨by rw [Bus.releaseNames_eq], granted_unowned after bus, fun name => ?_⟩
    rw [Bus.releaseNames_owner?]
    by_cases claimed : name ∈ bus.granted after.path after.definition.names
    · rw [if_pos claimed]
      rcases Bus.granted_free name claimed with none | owned
      · exact .inl none.symm
      · exact .inr ⟨rfl, owned, claimed⟩
    · rw [if_neg claimed]
      exact .inl rfl

def spareLamp : Object :=
  { unlitLamp with machine := Machine.new { lamp with names := ["test.Lamp", "test.Spare"] } }

def spareless : Bus := Bus.empty.refuseName "test.Spare"

theorem spareLamp_rolledBack :
    spareLamp.attemptRegistration spareless =
        (.error (.nameRefused "test.Spare"), spareLamp, spareless) ∧
      spareless.granted spareLamp.path spareLamp.definition.names = ["test.Lamp"] := by
  have attempts : ∃ after busAfter, spareLamp.attemptRegistration spareless =
      (.error (.nameRefused "test.Spare"), after, busAfter) := ⟨_, _, rfl⟩
  obtain ⟨after, busAfter, attempts⟩ := attempts
  obtain ⟨rfl, -, same, -⟩ := refusal_rolledBack spareLamp after spareless busAfter _ attempts
  have granted : spareless.granted spareLamp.path spareLamp.definition.names = ["test.Lamp"] := rfl
  obtain rfl := same (by simp [spareless, Bus.empty, Bus.refuseName, Bus.owner?])
  exact ⟨attempts, granted⟩

def spoken : Bus := { spareless with names := [("test.Lamp", "/lamp")] }

/-- The refusal of the second name costs the path the first one, which it had before. -/
theorem spareLamp_dispossessed :
    spareless.requestName "test.Lamp" "/lamp" = .ok spoken ∧
      spareLamp.attemptRegistration spoken =
        (.error (.nameRefused "test.Spare"), spareLamp, { spoken with names := [] }) ∧
      spoken.owner? "test.Lamp" = some "/lamp" ∧
      Bus.owner? { spoken with names := [] } "test.Lamp" = none :=
  ⟨rfl, rfl, rfl, rfl⟩

end Object

end SimBus
