import SimBus.Proofs.PropertyReadings
import SimBus.Proofs.ValueEquivalence
/-!
A property that no transition takes care of is a cell. A write puts the value into
the variable behind the property and touches no other; the property reads as that
value from then on, and to write the same value once more changes and announces
nothing.
-/

namespace SimBus

def Call.set (interface name : String) (value : Value) : Call :=
  ⟨Interface.propertiesName, "Set", [.string interface, .string name, .variant value]⟩

namespace Environment

/-- The first variable of the name, which has the type of the value, takes the value,
and nothing else changes. -/
def Stores (env : Environment) (name : String) (value : Value) (after : Environment) : Prop :=
  ∃ before b later, env = before ++ b :: later ∧ (∀ other ∈ before, other.name ≠ name) ∧
    b.name = name ∧ b.ty = value.ty ∧ after = before ++ { b with value := value } :: later

variable {env after : Environment} {name : String} {value : Value}

theorem binding?_split (before later : Environment) (b : Binding)
    (others : ∀ other ∈ before, other.name ≠ b.name) :
    binding? (before ++ b :: later) b.name = some b := by
  have absent : before.find? (·.name == b.name) = none :=
    List.find?_eq_none.mpr fun other member => by simpa using others other member
  simp [binding?, absent]

theorem put_split (before later : Environment) (b old : Binding)
    (others : ∀ other ∈ before, other.name ≠ b.name) (named : old.name = b.name) :
    put b (before ++ old :: later) = before ++ b :: later := by
  induction before with
  | nil => simp [put, named]
  | cons first rest ih =>
      obtain ⟨differs, others⟩ := List.forall_mem_cons.mp others
      simpa [put, differs] using ih others

theorem assign_ok_iff_stores : env.assign name value = .ok after ↔ env.Stores name value after := by
  rw [assign_ok_iff]
  constructor
  · rintro ⟨b, found, typed, rfl⟩
    obtain ⟨named, before, later, rfl, others⟩ := List.find?_eq_some_iff_append.mp found
    obtain rfl : b.name = name := by simpa using named
    replace others : ∀ other ∈ before, other.name ≠ b.name := by simpa using others
    exact ⟨before, b, later, rfl, others, rfl, typed.symm, put_split _ _ _ _ others rfl⟩
  · rintro ⟨before, b, later, rfl, others, rfl, typed, rfl⟩
    exact ⟨b, binding?_split before later b others, typed.symm,
      (put_split before later { b with value := value } b others rfl).symm⟩

theorem stores_lookup (stores : env.Stores name value after) : after.lookup name = .ok value := by
  obtain ⟨before, b, later, rfl, others, rfl, -, rfl⟩ := stores
  rw [lookup, binding?_split before later { b with value := value } others]

theorem stores_again (stores : env.Stores name value after) : after.Stores name value after := by
  obtain ⟨before, b, later, -, others, named, typed, rfl⟩ := stores
  exact ⟨before, { b with value := value }, later, rfl, others, named, typed, rfl⟩

theorem stores_of_type (typed : env.declaredType? name = some value.ty) :
    ∃ after, env.Stores name value after := by
  obtain ⟨b, found, sameTy⟩ := Option.map_eq_some_iff.mp typed
  exact ⟨_, assign_ok_iff_stores.mp ((assign_ok_iff _ _ _ _).mpr ⟨b, found, sameTy.symm, rfl⟩)⟩

end Environment

namespace Object

def Comparable (o : Object) : Prop :=
  ∀ entry ∈ o.exposedValues, ∀ x ∈ entry.2.2.doubles, x.isNaN = false

/-- The object has stored the value of a property: in one variable, and nowhere else.
The property reads as the value, and to write it again has no effect. -/
structure Stored (o : Object) (interface name : String) (value : Value) (after : Object) :
    Prop where
  cell : o.env.Stores name value after.env
  rest : after = { o with env := after.env, activity := o.activity + 1 }
  reads : ∀ bus, after.Gets bus interface name value
  again : after.Comparable → ∀ bus, after.dispatch bus (.set interface name value) =
    pure (.ok [.reply Value.unit], { after with activity := after.activity + 1 }, bus)

variable {o after : Object} {interface name : String} {i : Interface} {p : Property} {value : Value}

theorem changes_self (values : List (String × String × Value))
    (same : ∀ entry ∈ values, (entry.2.2 == entry.2.2) = true)
    (sofar : List (String × List (Value × Value))) : changes values values sofar = sofar := by
  induction values generalizing sofar with
  | nil => rfl
  | cons entry rest ih =>
      obtain ⟨here, later⟩ := List.forall_mem_cons.mp same
      rw [changes, if_pos here]
      exact ih later sofar

theorem announcements_self (comparable : o.Comparable)
    (same : after.exposedValues = o.exposedValues) : announcements o after = [] := by
  have equal : ∀ entry ∈ o.exposedValues, (entry.2.2 == entry.2.2) = true :=
    fun entry member => (Value.beq_self_iff entry.2.2).mpr (comparable entry member)
  rw [announcements, same, changes_self _ equal]
  rfl

/-- A direct write: the property is implemented, may be written, and has the type of the
value, and no transition of the state reacts to it. -/
structure WritesDirectly (o : Object) (interface name : String) (i : Interface) (p : Property)
    (value : Value) : Prop where
  implemented : o.implemented? interface = some i
  found : i.property? name = some p
  writable : p.access.writable = true
  typed : value.ty = p.ty
  passive : o.machine.accepts (.property interface name) = false

theorem dispatch_direct (writes : o.WritesDirectly interface name i p value) (bus : Bus) :
    o.dispatch bus (.set interface name value) =
      let (result, after, bus) := o.assignProperty bus p value
      pure (result.map acknowledge, after, bus) := by
  obtain ⟨implemented, found, writable, typed, passive⟩ := writes
  have sameInterface : i.name = interface :=
    o.known.find?_name interface i ((implemented?_eq_some_iff o interface i).mp implemented).2
  refine dispatch_assigned o bus _ i p value ⟨rfl, rfl, rfl, ⟨_, _, _, rfl,
    (property_ok_iff o interface name i p).mpr ⟨implemented, found⟩, rfl⟩, writable, typed⟩ ?_
  rw [sameInterface, i.property?_name name p found, passive]

theorem acknowledge_announced (before after : Object) :
    acknowledge (announcements before after) =
      announcements before after ++ [.reply Value.unit] := by
  simp [acknowledge, announcements_error?]

theorem dispatch_stored (writes : o.WritesDirectly interface name i p value) {env : Environment}
    (stores : o.env.Stores name value env) (bus : Bus) :
    o.dispatch bus (.set interface name value) =
      pure (.ok (announcements o (o.moved o.machine.current env) ++ [.reply Value.unit]),
        o.moved o.machine.current env,
        bus.queue (o.sent (announcements o (o.moved o.machine.current env)))) := by
  obtain rfl := i.property?_name name p writes.found
  obtain ⟨before, b, later, split, others, named, -⟩ := id stores
  have read : o.propertyValue p = .ok b.value := by
    rw [propertyValue, Environment.lookup, split, ← named,
      Environment.binding?_split before later b (named ▸ others)]
  have assigned := Environment.assign_ok_iff_stores.mpr stores
  rw [dispatch_direct writes, assignProperty, read]
  simp only [assigned, publish_queue, Except.map, acknowledge_announced]
  rfl

theorem dispatch_storedAgain (writes : o.WritesDirectly interface name i p value)
    (stores : o.env.Stores name value o.env) (comparable : o.Comparable) (bus : Bus) :
    o.dispatch bus (.set interface name value) =
      pure (.ok [.reply Value.unit], { o with activity := o.activity + 1 }, bus) := by
  have silent : announcements o (o.moved o.machine.current o.env) = [] :=
    announcements_self comparable rfl
  have unsent : o.sent [] = [] := by simp [sent, Output.signals]
  rw [dispatch_stored writes stores, silent, unsent, Bus.queue_nil]
  rfl

theorem moved_stored (writes : o.WritesDirectly interface name i p value)
    (readable : p.access.readable = true) {env : Environment}
    (stores : o.env.Stores name value env) :
    o.Stored interface name value (o.moved o.machine.current env) := by
  have implemented : (o.moved o.machine.current env).implemented? interface = some i :=
    writes.implemented
  refine ⟨stores, rfl, fun bus => ?_, fun comparable bus => ?_⟩
  · exact (gets_iff implemented name value).mpr
      ⟨p, writes.found, readable, Environment.stores_lookup stores⟩
  · exact dispatch_storedAgain
      ⟨implemented, writes.found, writes.writable, writes.typed, writes.passive⟩
      (Environment.stores_again stores) comparable bus

/-- A direct write of a property that can be read and written. It succeeds if the variable
behind the property has the type of the value: then the value is stored, and what the
write has changed about the properties is announced. Otherwise nothing changes at all. -/
theorem set_stores (o : Object) (bus : Bus) (interface name : String) (i : Interface)
    (p : Property) (value : Value) (implemented : o.implemented? interface = some i)
    (found : i.property? name = some p) (access : p.access = .readWrite)
    (typed : value.ty = p.ty)
    (passive : o.machine.accepts (.property interface name) = false) :
    if o.env.declaredType? name = some value.ty then
      ∃ after, o.dispatch bus (.set interface name value) =
          pure (.ok (announcements o after ++ [.reply Value.unit]), after,
            bus.queue (o.sent (announcements o after))) ∧
        o.Stored interface name value after
    else ∃ e, o.dispatch bus (.set interface name value) = pure (.error e, o, bus) := by
  have writes : o.WritesDirectly interface name i p value :=
    ⟨implemented, found, by rw [access]; rfl, typed, passive⟩
  split
  · next fits =>
      obtain ⟨env, stores⟩ := Environment.stores_of_type fits
      exact ⟨_, dispatch_stored writes stores bus,
        moved_stored writes (by rw [access]; rfl) stores⟩
  · next other =>
      rw [dispatch_direct writes]
      rcases assignProperty_cases o bus p value with ⟨e, refused⟩ | ⟨env, -, assigned, -, -⟩
      · exact ⟨e, by rw [refused]; rfl⟩
      · obtain ⟨b, here, sameTy, -⟩ := (Environment.assign_ok_iff _ _ _ _).mp assigned
        rw [i.property?_name name p found] at here
        exact absurd (by simp [Environment.declaredType?, here, sameTy]) other

def mixerSeven : Value := .int .uint32 ⟨7, by decide, by decide⟩

def mixerLoud : Object :=
  { mixerPlaying mixerProperties with
    env := [⟨"Volume", .int .uint32, mixerSeven, mixerVolume⟩,
      ⟨"Mute", .bool, .bool false, .bool false⟩]
    activity := 1 }

theorem mixerLoud_stored :
    (mixerPlaying mixerProperties).dispatch Bus.empty (.set "test.Mixer" "Volume" mixerSeven) =
      pure (.ok [changeSignal "test.Mixer" [propertyEntry "Volume" mixerSeven],
        .reply Value.unit], mixerLoud, Bus.empty) ∧
    (mixerPlaying mixerProperties).Stored "test.Mixer" "Volume" mixerSeven mixerLoud := by
  have played : (mixerPlaying mixerProperties).dispatch Bus.empty
      (.set "test.Mixer" "Volume" mixerSeven) = pure (.ok [changeSignal "test.Mixer"
        [propertyEntry "Volume" mixerSeven], .reply Value.unit], mixerLoud, Bus.empty) := rfl
  obtain ⟨after, set, stored⟩ := set_stores (mixerPlaying mixerProperties) Bus.empty "test.Mixer"
    "Volume" _ ⟨"Volume", .int .uint32, .readWrite⟩ mixerSeven rfl rfl rfl rfl rfl
  obtain rfl : mixerLoud = after :=
    congrArg (fun answer => answer.2.1) (Draws.done.inj (played.symm.trans set))
  exact ⟨played, stored⟩

end Object

end SimBus
