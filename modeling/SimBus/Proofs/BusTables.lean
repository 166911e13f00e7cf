import SimBus.Proofs.ObjectAnswers
/-!
What operations do to the tables of the bus, in terms of looking things up. An
object claims a path and names when it is registered and gives them back when it
is unregistered; claims that are refused halfway leave nothing behind.
-/

namespace SimBus

open Draws (Branch)

namespace Bus

theorem lookup_put {α : Type} (key other : String) (value : α) (table : List (String × α)) :
    ((key, value) :: table).lookup other =
      if other = key then some value else table.lookup other := by
  by_cases same : other = key
  · simp [same]
  · have differs : (other == key) = false := by simpa using same
    simp [List.lookup_cons, differs, same]

theorem lookup_remove {α : Type} (key other : String) (table : List (String × α)) :
    (remove key table).lookup other = if other = key then none else table.lookup other := by
  induction table with
  | nil => simp [remove]
  | cons entry rest ih =>
      obtain ⟨name, value⟩ := entry
      rw [lookup_put]
      by_cases removed : name = key
      · have dropped : remove key ((name, value) :: rest) = remove key rest := by
          simp [remove, removed]
        rw [dropped, ih, removed]
        by_cases same : other = key
        · simp [same]
        · simp [same]
      · have stays : remove key ((name, value) :: rest) = (name, value) :: remove key rest := by
          simp [remove, removed]
        rw [stays, lookup_put, ih]
        by_cases same : other = name
        · simp [same, removed]
        · simp [same]

structure SameTables (bus after : Bus) : Prop where
  interfaces : ∀ path, after.interfacesAt? path = bus.interfacesAt? path
  owners : ∀ name, after.owner? name = bus.owner? name

theorem SameTables.refl (bus : Bus) : SameTables bus bus := ⟨fun _ => rfl, fun _ => rfl⟩

theorem queue_sameTables (bus : Bus) (emissions : List Emission) :
    SameTables bus (bus.queue emissions) := ⟨fun _ => rfl, fun _ => rfl⟩

/-- The names were free for the owner, and now it has them. -/
structure Claimed (bus : Bus) (owner : String) (names : List String) (after : Bus) : Prop where
  interfaces : ∀ path, after.interfacesAt? path = bus.interfacesAt? path
  free : ∀ name ∈ names, bus.owner? name = none ∨ bus.owner? name = some owner
  owners : ∀ name, after.owner? name = if name ∈ names then some owner else bus.owner? name

/-- The path was unused and the names were free, and now they are in use. -/
structure Hosted (bus : Bus) (path : String) (interfaces names : List String) (after : Bus) :
    Prop where
  unused : bus.interfacesAt? path = none
  free : ∀ name ∈ names, bus.owner? name = none ∨ bus.owner? name = some path
  interfaces : ∀ other, after.interfacesAt? other =
    if other = path then some interfaces else bus.interfacesAt? other
  owners : ∀ name, after.owner? name = if name ∈ names then some path else bus.owner? name

structure Freed (bus : Bus) (path : String) (names : List String) (after : Bus) : Prop where
  interfaces : ∀ other, after.interfacesAt? other =
    if other = path then none else bus.interfacesAt? other
  owners : ∀ name, after.owner? name = if name ∈ names then none else bus.owner? name

theorem registerObject_hosted (bus after : Bus) (path : String) (interfaces : List String)
    (registered : bus.registerObject path interfaces = .ok after) :
    Hosted bus path interfaces [] after := by
  unfold registerObject at registered
  split at registered
  · cases registered
  · next unused =>
      obtain rfl := Except.ok.inj registered
      exact ⟨unused, by simp, fun other => lookup_put path other interfaces bus.objects,
        by simp [owner?]⟩

theorem releaseNames_freed (bus : Bus) (names : List String) (path : String) :
    Freed bus path names ((bus.releaseNames names).unregisterObject path) := by
  unfold releaseNames
  induction names generalizing bus with
  | nil =>
      constructor
      · intro other
        exact lookup_remove path other bus.objects
      · intro name
        simp [unregisterObject, owner?]
  | cons first rest ih =>
      rw [List.foldl_cons]
      obtain ⟨interfaces, owners⟩ := ih (bus.releaseName first)
      constructor
      · exact interfaces
      · intro name
        have released := lookup_remove first name bus.names
        rw [owners, releaseName, owner?, released]
        by_cases here : name = first
        · simp [here]
        · simp [here, owner?]

theorem requestName_claimed (bus after : Bus) (name owner : String)
    (requested : bus.requestName name owner = .ok after) : Claimed bus owner [name] after := by
  unfold requestName at requested
  split at requested
  · cases requested
  · split at requested
    · next unowned =>
        obtain rfl := Except.ok.inj requested
        refine ⟨fun _ => rfl, by simp [unowned], ?_⟩
        intro other
        simpa [owner?] using lookup_put name other owner bus.names
    · next current owned =>
        -- An owner may ask again for what it has, and nothing changes.
        split at requested
        · next same =>
            obtain rfl := Except.ok.inj requested
            obtain rfl := same
            refine ⟨fun _ => rfl, by simp [owned], ?_⟩
            intro other
            by_cases here : other = name
            · simp [here, owned]
            · simp [here]
        · cases requested

theorem claimed_hosted (bus middle after : Bus) (path : String) (interfaces names : List String)
    (placed : Hosted bus path interfaces [] middle) (claimed : Claimed middle path names after) :
    Hosted bus path interfaces names after := by
  have kept : ∀ name, middle.owner? name = bus.owner? name := by simpa using placed.owners
  constructor
  · exact placed.unused
  · intro name member
    exact kept name ▸ claimed.free name member
  · intro other
    rw [claimed.interfaces, placed.interfaces]
  · intro name
    rw [claimed.owners, kept]

theorem claimed_cons (bus middle after : Bus) (owner first : String) (rest : List String)
    (here : Claimed bus owner [first] middle) (others : Claimed middle owner rest after) :
    Claimed bus owner (first :: rest) after := by
  constructor
  · intro path
    rw [others.interfaces, here.interfaces]
  · intro name member
    by_cases same : name = first
    · exact here.free name (List.mem_singleton.mpr same)
    · have inRest : name ∈ rest := (List.mem_cons.mp member).resolve_left same
      have kept := here.owners name
      simp only [List.mem_singleton, same, ↓reduceIte] at kept
      exact kept ▸ others.free name inRest
  · intro name
    rw [others.owners, here.owners]
    by_cases same : name = first
    · simp [same]
    · simp [same]

end Bus

namespace Object

theorem claimNames_claimed (owner : String) (names sofar : List String) (bus after : Bus)
    (result : Except (RegistrationError × List String) (List String))
    (claims : claimNames owner names sofar bus = (result, after)) :
    ∃ done, Bus.Claimed bus owner done after ∧
      ((result = .ok (sofar ++ done) ∧ done = names) ∨
        ∃ e, result = .error (e, sofar ++ done)) := by
  have none : Bus.Claimed bus owner [] bus := ⟨fun _ => rfl, by simp, by simp⟩
  -- On the names that are left; those in `sofar` were claimed before.
  induction names generalizing sofar bus with
  | nil =>
      obtain ⟨rfl, rfl⟩ := Prod.mk.inj claims
      exact ⟨[], none, .inl ⟨by simp, rfl⟩⟩
  | cons name rest ih =>
      unfold claimNames at claims
      split at claims
      · next e refused =>
          obtain ⟨rfl, rfl⟩ := Prod.mk.inj claims
          exact ⟨[], none, .inr ⟨e, by simp⟩⟩
      · next middle requested =>
          have here := Bus.requestName_claimed bus middle name owner requested
          obtain ⟨done, others, outcome⟩ :=
            ih (sofar ++ [name]) middle claims ⟨fun _ => rfl, by simp, by simp⟩
          refine ⟨name :: done, Bus.claimed_cons bus middle after owner name done here others, ?_⟩
          rcases outcome with ⟨accepted, rfl⟩ | ⟨e, refused⟩
          · exact .inl ⟨by simp [accepted], rfl⟩
          · exact .inr ⟨e, by simp [refused]⟩

def exported (o : Object) : List String := o.definition.interfaces ++ [Interface.propertiesName]

theorem register_ok (o after : Object) (bus busAfter : Bus)
    (registers : o.register bus = (.ok after, busAfter)) :
    o.registered = false ∧ after = { o with registered := true, held := o.definition.names } ∧
      Bus.Hosted bus o.path o.exported o.definition.names busAfter := by
  unfold register at registers
  split at registers
  · cases registers
  · next idle =>
      split at registers
      · cases registers
      · next middle placed =>
          have placed := Bus.registerObject_hosted bus middle o.path o.exported placed
          split at registers
          · next held bus' claims =>
              obtain ⟨registered, rfl⟩ := Prod.mk.inj registers
              obtain rfl := Except.ok.inj registered
              obtain ⟨names, claimed, ⟨accepted, rfl⟩ | ⟨e, refused⟩⟩ :=
                claimNames_claimed _ _ _ _ _ _ claims
              · obtain rfl := Except.ok.inj accepted
                exact ⟨by simpa using idle, rfl,
                  Bus.claimed_hosted bus middle bus' o.path o.exported _ placed claimed⟩
              · cases refused
          · cases registers

/-- The object claims the same as before, whether it is on the bus or not. -/
structure SameClaims (o after : Object) : Prop where
  definition : after.definition = o.definition
  registered : after.registered = o.registered
  held : after.held = o.held

theorem SameClaims.refl (o : Object) : SameClaims o o := ⟨rfl, rfl, rfl⟩

theorem handles_sameClaims (o : Object) (bus : Bus) (trigger : Trigger) (arguments : List Value)
    (result : Except BusError Output) (after : Object) (busAfter : Bus)
    (handles : Handles o bus trigger arguments result after busAfter) :
    SameClaims o after ∧ Bus.SameTables bus busAfter := by
  cases handles with
  | refused e => exact ⟨.refl o, .refl bus⟩
  | raised => exact ⟨⟨rfl, rfl, rfl⟩, bus.queue_sameTables _⟩
  | completed => exact ⟨⟨rfl, rfl, rfl⟩, bus.queue_sameTables _⟩

theorem dispatch_sameClaims (o : Object) (bus : Bus) (call : Call)
    (result : Except BusError Output) (after : Object) (busAfter : Bus)
    (branch : Branch (o.dispatch bus call) (result, after, busAfter)) :
    SameClaims o after ∧ Bus.SameTables bus busAfter := by
  cases dispatch_answers o bus call result after busAfter branch with
  | refused | read => exact ⟨.refl o, .refl bus⟩
  | called _ _ handles => exact handles_sameClaims o bus _ _ _ _ _ handles
  | written _ _ _ handles => exact handles_sameClaims o bus _ _ _ _ _ handles
  | assigned => exact ⟨⟨rfl, rfl, rfl⟩, bus.queue_sameTables _⟩

theorem tick_sameClaims (o : Object) (bus : Bus) (result : Option (Except BusError Output))
    (after : Object) (busAfter : Bus) (branch : Branch (o.tick bus) (result, after, busAfter)) :
    SameClaims o after ∧ Bus.SameTables bus busAfter := by
  rcases tick_cases o bus result after busAfter branch with ⟨-, rfl, rfl⟩ | ⟨answer, -, handles⟩
  · exact ⟨.refl after, .refl busAfter⟩
  · exact handles_sameClaims o bus _ _ _ _ _ handles

end Object

end SimBus
