import SimBus.Call.Transport
import SimBus.Proofs.Resolved
import SimBus.Proofs.WellFormedValues
/-!
Values that are read from JSON. Whatever is read at a type is a well-formed value of this very
type, also inside variants, where the signature beside the value names the type to read at. So
the arguments of a call that was read have the types that its member takes.
-/

namespace SimBus

namespace Value

theorem ofJsonBasic_inhabits (json : Json) (ty : Ty) (v : Value)
    (read : ofJsonBasic json ty = .ok v) : v.Inhabits ty := by
  cases ty with
  | bool =>
      simp only [ofJsonBasic] at read
      split at read
      · next flag _ =>
          obtain rfl := Except.ok.inj read
          exact inhabits_bool flag
      · cases read
  | double =>
      simp only [ofJsonBasic] at read
      split at read
      · next x _ =>
          obtain rfl := Except.ok.inj read
          exact inhabits_double x
      · cases read
  | int kind =>
      simp only [ofJsonBasic] at read
      split at read
      · next z _ => exact ofInt_ok (.int kind) z v read
      · cases read
  | string =>
      simp only [ofJsonBasic] at read
      split at read
      · next text _ =>
          obtain rfl := Except.ok.inj read
          exact inhabits_string text
      · cases read
  | objectPath =>
      simp only [ofJsonBasic] at read
      split at read
      · next text _ => exact mkObjectPath_ok text v read
      · cases read
  | variant | array | tuple | dict => cases read

theorem mkDict_inhabits (key value : Ty) (pairs : List (Value × Value)) (v : Value)
    (typed : ∀ pair ∈ pairs, pair.1.Inhabits key ∧ pair.2.Inhabits value)
    (made : mkDict key value pairs = .ok v) : v.Inhabits (.dict key value) := by
  obtain ⟨made', same, inhabits⟩ := mkDict_ok key value pairs typed
  obtain rfl := Except.ok.inj (same.symm.trans made)
  exact inhabits

theorem forall₂_inhabits_iff (items : List Value) (types : List Ty) :
    List.Forall₂ Inhabits items types ↔
      (∀ item ∈ items, item.WellFormed) ∧ items.map ty = types := by
  induction items generalizing types with
  | nil => simp [eq_comm]
  | cons item rest ih =>
      rw [List.forall₂_cons_left_iff]
      constructor
      · rintro ⟨ty, types, here, later, rfl⟩
        obtain ⟨wellFormed, typed⟩ := (ih types).mp later
        exact ⟨List.forall_mem_cons.mpr ⟨here.1, wellFormed⟩, by rw [List.map_cons, here.2, typed]⟩
      · rintro ⟨wellFormed, rfl⟩
        obtain ⟨first, others⟩ := List.forall_mem_cons.mp wellFormed
        exact ⟨item.ty, rest.map ty, ⟨first, rfl⟩, (ih _).mpr ⟨others, rfl⟩, rfl⟩

theorem inhabits_tuple (items : List Value) (types : List Ty)
    (typed : List.Forall₂ Inhabits items types) : (tuple items).Inhabits (.tuple types) := by
  obtain ⟨wellFormed, rfl⟩ := (forall₂_inhabits_iff items types).mp typed
  exact ⟨(wellFormed_tuple_iff items).mpr wellFormed, ty_tuple items⟩

mutual
theorem ofJson_inhabits (json : Json) (ty : Ty) (v : Value) (read : ofJson json ty = .ok v) :
    v.Inhabits ty := by
  cases json with
  | array items =>
      cases ty with
      | array element =>
          obtain ⟨values, inside, made⟩ := (except_bind_ok_iff _ _ _).mp read
          obtain rfl := Except.ok.inj made
          exact inhabits_array element values (ofJsonItems_inhabits items element values inside)
      | tuple members =>
          rw [ofJson] at read
          split at read
          · next counted =>
              obtain ⟨values, inside, made⟩ := (except_bind_ok_iff _ _ _).mp read
              obtain rfl := Except.ok.inj made
              exact inhabits_tuple values members
                (ofJsonTuple_inhabits items members values counted inside)
          · cases read
      | dict key value =>
          obtain ⟨pairs, inside, made⟩ := (except_bind_ok_iff _ _ _).mp read
          exact mkDict_inhabits key value pairs v
            (ofJsonPairs_inhabits _ items key value pairs inside) made
      | _ => exact ofJsonBasic_inhabits (.array items) _ v read
  | object members =>
      cases ty with
      | dict key value =>
          obtain ⟨pairs, inside, made⟩ := (except_bind_ok_iff _ _ _).mp read
          exact mkDict_inhabits key value pairs v
            (ofJsonObject_inhabits members key value pairs inside) made
      | variant =>
          simp only [ofJson] at read
          split at read
          · cases read
          · split at read
            · cases read
            · next ty _ =>
                obtain ⟨inner, inside, made⟩ := (except_bind_ok_iff _ _ _).mp read
                obtain rfl := Except.ok.inj made
                have typed := ofJsonMember_inhabits _ "value" members ty inner inside
                exact inhabits_variant inner typed.1
      | _ => exact ofJsonBasic_inhabits (.object members) _ v read
  | _ =>
      simp only [ofJson] at read
      exact ofJsonBasic_inhabits _ ty v read

theorem ofJsonItems_inhabits (items : List Json) (element : Ty) (values : List Value)
    (read : ofJsonItems items element = .ok values) : ∀ v ∈ values, v.Inhabits element := by
  match items with
  | [] =>
      obtain rfl := Except.ok.inj read
      simp
  | item :: rest =>
      simp only [ofJsonItems, except_bind_ok_iff] at read
      obtain ⟨first, here, others, later, made⟩ := read
      obtain rfl := Except.ok.inj made
      exact List.forall_mem_cons.mpr
        ⟨ofJson_inhabits item element first here, ofJsonItems_inhabits rest element others later⟩

theorem ofJsonTuple_inhabits (items : List Json) (members : List Ty) (values : List Value)
    (counted : items.length = members.length) (read : ofJsonTuple items members = .ok values) :
    List.Forall₂ Inhabits values members := by
  match items, members with
  | [], [] =>
      obtain rfl := Except.ok.inj read
      exact .nil
  | item :: rest, ty :: types =>
      simp only [ofJsonTuple, except_bind_ok_iff] at read
      obtain ⟨first, here, others, later, made⟩ := read
      obtain rfl := Except.ok.inj made
      have left : rest.length = types.length := Nat.succ.inj counted
      exact .cons (ofJson_inhabits item ty first here)
        (ofJsonTuple_inhabits rest types others left later)
  | [], _ :: _ => cases counted
  | _ :: _, [] => cases counted

theorem ofJsonPairs_inhabits (fault : ValueError) (items : List Json) (key value : Ty)
    (pairs : List (Value × Value)) (read : ofJsonPairs fault items key value = .ok pairs) :
    ∀ pair ∈ pairs, pair.1.Inhabits key ∧ pair.2.Inhabits value := by
  match items with
  | [] =>
      obtain rfl := Except.ok.inj read
      simp
  | .array [jsonKey, jsonValue] :: rest =>
      simp only [ofJsonPairs, except_bind_ok_iff] at read
      obtain ⟨k, ofKey, v, ofValue, others, later, made⟩ := read
      obtain rfl := Except.ok.inj made
      have first := And.intro (ofJson_inhabits jsonKey key k ofKey)
        (ofJson_inhabits jsonValue value v ofValue)
      exact List.forall_mem_cons.mpr
        ⟨first, ofJsonPairs_inhabits fault rest key value others later⟩
  | .array [] :: _ | .array [_] :: _ | .array (_ :: _ :: _ :: _) :: _ => cases read
  | .null :: _ | .bool _ :: _ | .integer _ :: _ | .float _ :: _ | .string _ :: _ | .object _ :: _ =>
      cases read

theorem ofJsonObject_inhabits (members : List (String × Json)) (key value : Ty)
    (pairs : List (Value × Value)) (read : ofJsonObject members key value = .ok pairs) :
    ∀ pair ∈ pairs, pair.1.Inhabits key ∧ pair.2.Inhabits value := by
  match members with
  | [] =>
      obtain rfl := Except.ok.inj read
      simp
  | (name, json) :: rest =>
      simp only [ofJsonObject, except_bind_ok_iff] at read
      obtain ⟨k, ofKey, v, ofValue, others, later, made⟩ := read
      obtain rfl := Except.ok.inj made
      have first := And.intro (ofJsonBasic_inhabits (.string name) key k ofKey)
        (ofJson_inhabits json value v ofValue)
      exact List.forall_mem_cons.mpr ⟨first, ofJsonObject_inhabits rest key value others later⟩

theorem ofJsonMember_inhabits (fault : ValueError) (name : String)
    (members : List (String × Json)) (ty : Ty) (v : Value)
    (read : ofJsonMember fault name members ty = .ok v) : v.Inhabits ty := by
  match members with
  | [] => cases read
  | (other, json) :: rest =>
      rw [ofJsonMember] at read
      split at read
      · exact ofJson_inhabits json ty v read
      · exact ofJsonMember_inhabits fault name rest ty v read
end

end Value

namespace Call

/-- The types of the arguments that the member of the interface takes. -/
def inputTypes? (known : InterfaceSet) (interface member : String) : Option (List Ty) :=
  if interface = Interface.propertiesName then
    match member with
    | "Get" => some [.string, .string]
    | "GetAll" => some [.string]
    | "Set" => some [.string, .string, .variant]
    | _ => none
  else ((known.find? interface).bind (·.method? member)).map fun m => Argument.types m.inputs

/-- The arguments are well-formed values of the types that the member takes. -/
def Typed (known : InterfaceSet) (call : Call) : Prop :=
  ∃ types, inputTypes? known call.interface call.member = some types ∧
    List.Forall₂ Value.Inhabits call.arguments types

theorem readAll_inhabits (arguments : List Json) (types : List Ty) (values : List Value)
    (counted : arguments.length = types.length) (read : readAll arguments types = .ok values) :
    List.Forall₂ Value.Inhabits values types := by
  induction arguments generalizing types values with
  | nil =>
      obtain rfl := List.eq_nil_of_length_eq_zero counted.symm
      obtain rfl := Except.ok.inj read
      exact .nil
  | cons json rest ih =>
      cases types with
      | nil => cases counted
      | cons ty types =>
          rw [readAll] at read
          split at read
          · cases read
          · next value here =>
              obtain ⟨others, later, rfl⟩ := (except_map_ok_iff _ _ _).mp read
              exact .cons (Value.ofJson_inhabits json ty value here)
                (ih types others (Nat.succ.inj counted) later)

theorem readArguments_inhabits (arguments : List Json) (types : List Ty) (values : List Value)
    (read : readArguments arguments types = .ok values) :
    List.Forall₂ Value.Inhabits values types := by
  unfold readArguments at read
  split at read
  · next counted => exact readAll_inhabits arguments types values counted read
  · cases read

theorem readWritten_cases (known : InterfaceSet) (interface property : String) (json : Json)
    (v : Value) (read : readWritten known interface property json = .ok v) :
    (isTagged json = true ∧ Value.ofJson json .variant = .ok v) ∨
      ∃ i p inner, known.find? interface = some i ∧ i.property? property = some p ∧
        Value.ofJson json p.ty = .ok inner ∧ v = .variant inner := by
  unfold readWritten at read
  simp only at read
  split at read
  · next tagged =>
      split at read
      · next value inside =>
          obtain rfl := Except.ok.inj read
          exact .inl ⟨tagged, inside⟩
      · cases read
  · split at read
    · cases read
    · next p found =>
        obtain ⟨i, described, listed⟩ := Option.bind_eq_some_iff.mp found
        split at read
        · next inner inside =>
            obtain rfl := Except.ok.inj read
            exact .inr ⟨i, p, inner, described, listed, inside, rfl⟩
        · cases read

theorem readWritten_inhabits (known : InterfaceSet) (interface property : String) (json : Json)
    (v : Value) (read : readWritten known interface property json = .ok v) :
    v.Inhabits .variant := by
  rcases readWritten_cases known interface property json v read with
    ⟨-, inside⟩ | ⟨i, p, inner, -, -, inside, rfl⟩
  · exact Value.ofJson_inhabits json .variant v inside
  · exact Value.inhabits_variant inner (Value.ofJson_inhabits json p.ty inner inside).1

theorem readWrite_ok (known : InterfaceSet) (arguments : List Json) (values : List Value)
    (read : readWrite known arguments = .ok values) :
    ∃ first second json interface property v, arguments = [first, second, json] ∧
      readWritten known interface property json = .ok v ∧
      values = [.string interface, .string property, v] := by
  unfold readWrite at read
  split at read
  · split at read
    · obtain ⟨v, written, rfl⟩ := (except_map_ok_iff _ _ _).mp read
      exact ⟨_, _, _, _, _, v, rfl, written, rfl⟩
    · cases read
  · cases read

theorem readWrite_inhabits (known : InterfaceSet) (arguments : List Json) (values : List Value)
    (read : readWrite known arguments = .ok values) :
    List.Forall₂ Value.Inhabits values [.string, .string, .variant] := by
  obtain ⟨-, -, json, interface, property, v, -, written, rfl⟩ :=
    readWrite_ok known arguments values read
  have typed := readWritten_inhabits known interface property json v written
  exact .cons (Value.inhabits_string _) (.cons (Value.inhabits_string _) (.cons typed .nil))

theorem readPropertyCall_inhabits (known : InterfaceSet) (member : String) (arguments : List Json)
    (values : List Value) (read : readPropertyCall known member arguments = .ok values) :
    ∃ types, inputTypes? known Interface.propertiesName member = some types ∧
      List.Forall₂ Value.Inhabits values types := by
  unfold readPropertyCall at read
  split at read
  · exact ⟨_, rfl, readArguments_inhabits arguments _ values read⟩
  · exact ⟨_, rfl, readArguments_inhabits arguments _ values read⟩
  · exact ⟨_, rfl, readWrite_inhabits known arguments values read⟩
  · cases read

theorem readMethodCall_inhabits (known : InterfaceSet) (interface member : String)
    (arguments : List Json) (values : List Value)
    (ordinary : interface ≠ Interface.propertiesName)
    (read : readMethodCall known interface member arguments = .ok values) :
    ∃ types, inputTypes? known interface member = some types ∧
      List.Forall₂ Value.Inhabits values types := by
  unfold readMethodCall at read
  split at read
  · cases read
  · next i described =>
      split at read
      · cases read
      · next m found =>
          refine ⟨Argument.types m.inputs, ?_, readArguments_inhabits arguments _ values read⟩
          simp [inputTypes?, ordinary, described, found]

theorem ofJson_typed (known : InterfaceSet) (interface member : String) (arguments : List Json)
    (call : Call) (read : ofJson known interface member arguments = .ok call) :
    call.Typed known := by
  obtain ⟨values, inside, rfl⟩ := (except_map_ok_iff _ _ _).mp read
  by_cases properties : interface = Interface.propertiesName
  · subst properties
    exact readPropertyCall_inhabits known member arguments values (by simpa using inside)
  · refine readMethodCall_inhabits known interface member arguments values properties ?_
    simpa [properties] using inside

end Call

end SimBus
