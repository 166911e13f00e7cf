import SimBus.Proofs.ExposedTypes
/-!
The two ways of reading properties. `Get` looks up the first property of a name and
refuses it unless it is readable; `GetAll` goes through all properties and passes over
those that are not. Both tell the same as long as an interface has no two properties
of one name. If it has, `GetAll` lists the name for each of them.
-/

namespace SimBus

namespace Call

def get (interface name : String) : Call :=
  ⟨Interface.propertiesName, "Get", [.string interface, .string name]⟩

def getAll (interface : String) : Call :=
  ⟨Interface.propertiesName, "GetAll", [.string interface]⟩

end Call

namespace Interface

def DistinctProperties (i : Interface) : Prop := (i.properties.map Property.name).Nodup

theorem property?_mem (i : Interface) (name : String) (p : Property)
    (found : i.property? name = some p) : p ∈ i.properties :=
  List.mem_of_find?_eq_some found

theorem property?_of_mem (i : Interface) (distinct : i.DistinctProperties) (p : Property)
    (member : p ∈ i.properties) : i.property? p.name = some p := by
  unfold DistinctProperties at distinct
  unfold property?
  generalize i.properties = properties at distinct member
  induction properties with
  | nil => cases member
  | cons first rest ih =>
      obtain ⟨fresh, distinct⟩ := List.nodup_cons.mp distinct
      rcases List.mem_cons.mp member with rfl | later
      · simp
      · have differs : first.name ≠ p.name := fun same =>
          fresh (same ▸ List.mem_map_of_mem later)
        rw [List.find?_cons_of_neg (by simpa using differs)]
        exact ih distinct later

end Interface

namespace Object

variable {o : Object} {bus : Bus} {interface : String} {i : Interface}

/-- `Get` replies the value, and that is all it does. -/
def Gets (o : Object) (bus : Bus) (interface name : String) (value : Value) : Prop :=
  o.dispatch bus (.get interface name) = pure (.ok [.reply (.tuple [.variant value])], o, bus)

/-- `Get` refuses the property, because it is write-only or has no variable behind it. -/
def Withholds (o : Object) (bus : Bus) (interface name : String) : Prop :=
  o.dispatch bus (.get interface name) = pure (.error (.writeOnly interface name), o, bus) ∨
    o.dispatch bus (.get interface name) = pure (.error (.withoutData name), o, bus)

def Readable (o : Object) (i : Interface) (name : String) (value : Value) : Prop :=
  ∃ p ∈ i.properties, p.name = name ∧ p.access.readable = true ∧ o.env.lookup name = .ok value

theorem dispatch_reading (name : String) :
    o.dispatch bus (.get interface name) = pure (o.getProperty interface name, o, bus) := rfl

theorem getProperty_found (name : String) (p : Property)
    (implemented : o.implemented? interface = some i) (found : i.property? name = some p) :
    o.getProperty interface name =
      if p.access.readable then
        match o.env.lookup name with
        | .ok value => .ok [.reply (.tuple [.variant value])]
        | .error _ => .error (.withoutData name)
      else .error (.writeOnly interface name) := by
  have named : p.name = name := i.property?_name name p found
  have sameInterface : i.name = interface :=
    o.known.find?_name interface i ((implemented?_eq_some_iff o interface i).mp implemented).2
  have looked := (property_ok_iff o interface name i p).mpr ⟨implemented, found⟩
  cases read : o.env.lookup name <;> cases readable : p.access.readable <;>
    simp [getProperty, looked, propertyValue, readable, read, named, sameInterface, bind,
      Except.bind, pure, Except.pure]

theorem gets_iff (implemented : o.implemented? interface = some i) (name : String)
    (value : Value) : o.Gets bus interface name value ↔
      ∃ p, i.property? name = some p ∧ p.access.readable = true ∧
        o.env.lookup name = .ok value := by
  have answered : o.Gets bus interface name value ↔
      o.getProperty interface name = .ok [.reply (.tuple [.variant value])] := by
    rw [Gets, dispatch_reading]
    exact ⟨fun same => congrArg Prod.fst (Draws.done.inj same), fun same => by rw [same]⟩
  rw [answered]
  cases found : i.property? name with
  | none =>
      have unknown : o.getProperty interface name = .error (.unknownProperty interface name) := by
        simp [getProperty, property, implemented, found, bind, Except.bind]
      simp [unknown]
  | some p =>
      rw [getProperty_found name p implemented found]
      cases readable : p.access.readable <;> cases o.env.lookup name <;> simp [readable]

theorem withholds_iff (implemented : o.implemented? interface = some i) (name : String)
    (p : Property) (found : i.property? name = some p) :
    o.Withholds bus interface name ↔ ∀ value, ¬ o.Gets bus interface name value := by
  simp only [gets_iff implemented, found, Option.some.injEq, Withholds, dispatch_reading,
    getProperty_found name p implemented found]
  cases readable : p.access.readable with
  | false => simp [readable]
  | true =>
      cases o.env.lookup name with
      | error e => simp
      | ok value =>
          have replied (refused : BusError) :
              (pure (.ok [.reply (.tuple [.variant value])], o, bus) :
                Draws (Except BusError Output × Object × Bus)) ≠ pure (.error refused, o, bus) :=
            fun same => by cases Draws.done.inj same
          simp [readable, replied]

/-- The entries that `GetAll` replies. -/
def readings (o : Object) (i : Interface) : List (Value × Value) :=
  (o.readableValues i).map fun entry => propertyEntry entry.1 entry.2

theorem mem_readings_iff (o : Object) (i : Interface) (name : String) (value : Value) :
    propertyEntry name value ∈ o.readings i ↔ o.Readable i name value := by
  have entry (other : String) (held : Value) :
      propertyEntry other held = propertyEntry name value ↔ other = name ∧ held = value := by
    simp [propertyEntry]
  simp only [readings, readableValues, List.mem_map, List.mem_filterMap, List.mem_filter, Readable]
  constructor
  · rintro ⟨⟨other, held⟩, ⟨p, ⟨member, readable⟩, listed⟩, same⟩
    obtain ⟨rfl, rfl⟩ := (entry other held).mp same
    split at listed
    · next read =>
        obtain ⟨rfl, rfl⟩ := Prod.mk.inj (Option.some.inj listed)
        exact ⟨p, member, rfl, readable, read⟩
    · cases listed
  · rintro ⟨p, member, rfl, readable, read⟩
    exact ⟨(p.name, value), ⟨p, ⟨member, readable⟩, by rw [read]⟩, rfl⟩

theorem readings_names (o : Object) (i : Interface) :
    ((o.readings i).map Prod.fst).Sublist ((i.properties.map Property.name).map Value.string) := by
  rw [readings, readableValues_eq_map, List.map_map, List.map_map, List.map_map]
  exact List.filter_sublist.map _

/-- `GetAll` lists the property of a name under its value, for every property that can
be read. So it lists all that `Get` replies. If no two properties have one name, no name
is listed twice, and only what `Get` replies is listed: what it refuses is passed over. -/
theorem getAll_agrees (o : Object) (bus : Bus) (interface : String) (i : Interface)
    (implemented : o.implemented? interface = some i) :
    ∃ entries, o.dispatch bus (.getAll interface) =
        pure (.ok [.reply (.tuple [.dict .string .variant entries])], o, bus) ∧
      (∀ entry ∈ entries, ∃ name value, entry = (.string name, .variant value)) ∧
      (∀ name value, (.string name, .variant value) ∈ entries ↔ o.Readable i name value) ∧
      (∀ name value, o.Gets bus interface name value →
        (.string name, .variant value) ∈ entries) ∧
      (i.DistinctProperties →
        (entries.map Prod.fst).Nodup ∧
        (∀ name value, (.string name, .variant value) ∈ entries ↔
          o.Gets bus interface name value) ∧
        ∀ name p, i.property? name = some p → (o.Withholds bus interface name ↔
          ∀ value, (.string name, .variant value) ∉ entries)) := by
  have gets (name : String) (value : Value) (read : o.Gets bus interface name value) :
      o.Readable i name value := by
    obtain ⟨p, found, readable, looked⟩ := (gets_iff implemented name value).mp read
    exact ⟨p, i.property?_mem name p found, i.property?_name name p found, readable, looked⟩
  refine ⟨o.readings i, ?_, ?_, mem_readings_iff o i, ?_, ?_⟩
  · change pure (o.getAllProperties interface, o, bus) = _
    rw [getAllProperties, implemented]
    rfl
  · intro entry member
    obtain ⟨⟨name, value⟩, -, rfl⟩ := List.mem_map.mp member
    exact ⟨name, value, rfl⟩
  · exact fun name value read => (mem_readings_iff o i name value).mpr (gets name value read)
  · intro distinct
    have listed (name : String) (value : Value) : propertyEntry name value ∈ o.readings i ↔
        o.Gets bus interface name value := by
      rw [mem_readings_iff]
      refine ⟨?_, gets name value⟩
      rintro ⟨p, member, rfl, readable, looked⟩
      exact (gets_iff implemented p.name value).mpr
        ⟨p, i.property?_of_mem distinct p member, readable, looked⟩
    refine ⟨(readings_names o i).nodup ?_, listed, ?_⟩
    · exact distinct.map fun _ _ same => Value.string.inj same
    · intro name p found
      rw [withholds_iff implemented name p found]
      exact forall_congr' fun value => not_congr (listed name value).symm

/-! A mixer, with the properties that its interface happens to describe. -/

def mixerText : String :=
  "object at /mixer implements test.Mixer " ++ braced
    ("data " ++ braced "Volume : u = 4; Mute : b = false;" ++ "states " ++ braced "Playing;")

def mixerKnown (properties : List Property) : InterfaceSet := ⟨[⟨"test.Mixer", [], [], properties⟩]⟩

def mixerVolume : Value := .int .uint32 ⟨4, by decide, by decide⟩

def mixer : Definition where
  path := "/mixer"
  names := []
  interfaces := ["test.Mixer"]
  data := [⟨"Volume", .int .uint32, .literal mixerVolume, ⟨1, 49⟩⟩,
    ⟨"Mute", .bool, .literal (.bool false), ⟨1, 65⟩⟩]
  states := ["Playing"]
  transitions := []
  position := ⟨1, 1⟩

def mixerPlaying (properties : List Property) : Object where
  machine := ⟨mixer, 0⟩
  env := [⟨"Volume", .int .uint32, mixerVolume, mixerVolume⟩,
    ⟨"Mute", .bool, .bool false, .bool false⟩]
  known := mixerKnown properties
  builtins := Builtin.standard
  activity := 0
  registered := false
  held := []

def mixerProperties : List Property :=
  [⟨"Volume", .int .uint32, .readWrite⟩, ⟨"Mute", .bool, .write⟩, ⟨"Balance", .double, .read⟩]

theorem mixer_agrees :
    ∃ entries, (mixerPlaying mixerProperties).dispatch Bus.empty (.getAll "test.Mixer") =
        pure (.ok [.reply (.tuple [.dict .string .variant entries])],
          mixerPlaying mixerProperties, Bus.empty) ∧
      (entries.map Prod.fst).Nodup ∧ (.string "Volume", .variant mixerVolume) ∈ entries ∧
      (∀ value, (.string "Mute", .variant value) ∉ entries) ∧
      ∀ value, (.string "Balance", .variant value) ∉ entries := by
  obtain ⟨entries, replied, -, -, all, agrees⟩ :=
    getAll_agrees (mixerPlaying mixerProperties) Bus.empty "test.Mixer" _ rfl
  obtain ⟨distinct, -, withheld⟩ :=
    agrees (by simp [Interface.DistinctProperties, mixerProperties])
  exact ⟨entries, replied, distinct, all "Volume" mixerVolume rfl,
    (withheld "Mute" _ rfl).mp (.inl rfl), (withheld "Balance" _ rfl).mp (.inr rfl)⟩

/-- Two properties of one name twice over, of which the first is or is not to be read. -/
def mixerRepeated : List Property :=
  [⟨"Volume", .int .uint32, .read⟩, ⟨"Volume", .int .uint32, .readWrite⟩,
    ⟨"Mute", .bool, .write⟩, ⟨"Mute", .bool, .read⟩]

set_option maxRecDepth 100000 in
theorem mixer_parsed :
    Program.parse Builtin.standard (mixerKnown mixerRepeated) mixerText = .ok ⟨[mixer], []⟩ := by
  rw [Program.parse_ofRead _ _ _ ?cs ?raw ?after ?chars ?reads]
  case chars =>
    unfold mixerText braced
    simp only [String.toList_append]
    repeat rewrite [String.toList_ofList]
    rfl
  case reads =>
    cbv
    rfl
  rfl

/-- `GetAll` lists the volume twice, and a reading that `Get` refuses. -/
theorem mixer_repeats :
    Program.parse Builtin.standard (mixerKnown mixerRepeated) mixerText = .ok ⟨[mixer], []⟩ ∧
    Reached mixer (mixerKnown mixerRepeated) Builtin.standard (fun _ => True)
      (mixerPlaying mixerRepeated) ∧
    ∃ entries, (mixerPlaying mixerRepeated).dispatch Bus.empty (.getAll "test.Mixer") =
        pure (.ok [.reply (.tuple [.dict .string .variant entries])],
          mixerPlaying mixerRepeated, Bus.empty) ∧
      ¬ (entries.map Prod.fst).Nodup ∧
      (.string "Mute", .variant (.bool false)) ∈ entries ∧
      ¬ (mixerPlaying mixerRepeated).Gets Bus.empty "test.Mixer" "Mute" (.bool false) := by
  refine ⟨mixer_parsed, .created (.done _), [(.string "Volume", .variant mixerVolume),
    (.string "Volume", .variant mixerVolume), (.string "Mute", .variant (.bool false))], rfl,
    by simp, by simp, ?_⟩
  intro read
  cases Draws.done.inj read

end Object

end SimBus
