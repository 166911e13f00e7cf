import SimBus.Proofs.DrawBranches
import SimBus.Proofs.JsonRoundTrip
import SimBus.Proofs.Resolved
import SimBus.Service
/-!
Property writes in a session. The new value may stand there as it is, or as a
variant with its signature beside it. A session tells the two apart by their
members, so both say the same unless a value that stands there as it is has the
members of a variant itself.
-/

namespace SimBus

namespace Json

theorem member?_ofMembers (members : List (String × Json)) (name : String)
    (distinct : (members.map Prod.fst).Nodup) :
    ((ofMembers members).member? name).isSome = true ↔ name ∈ members.map Prod.fst := by
  obtain ⟨sorted, permuted, made⟩ := ofMembers_perm members distinct
  rw [made, member?, List.lookup_isSome_iff, ← (permuted.map Prod.fst).mem_iff]
  constructor
  · rintro ⟨member, listed, same⟩
    exact beq_iff_eq.mp same ▸ List.mem_map_of_mem listed
  · intro listed
    obtain ⟨member, here, rfl⟩ := List.mem_map.mp listed
    exact ⟨member, here, beq_self_eq_true member.1⟩

end Json

namespace Value

/-- Written as it is, the value has the members of a variant: because it is one, or
because its keys become members of these names. -/
def LooksTagged : Value → Prop
  | variant _ => True
  | dict key _ entries => isTextual key = true ∧
      (∃ entry ∈ entries, entry.1.text? = some "signature") ∧
      ∃ entry ∈ entries, entry.1.text? = some "value"
  | _ => False

theorem isTagged_iff (v : Value) (wellFormed : v.WellFormed) :
    Call.isTagged v.toJson = true ↔ v.LooksTagged := by
  cases v with
  | bool | int | string | objectPath | array | tuple =>
      simp [toJson, Call.isTagged, Json.member?, LooksTagged]
  | double x =>
      by_cases finite : x.isFinite = true
      · simp [toJson, Json.ofFloat, finite, Call.isTagged, Json.member?, LooksTagged]
      · simp [toJson, Json.ofFloat, finite, Call.isTagged, Json.member?, LooksTagged]
  | variant inner =>
      rw [toJson_variant]
      exact ⟨fun _ => trivial, fun _ => rfl⟩
  | dict key value entries =>
      have typed := (wellFormed_dict_iff key value entries).mp wellFormed
      cases textual : isTextual key with
      | false => simp [toJson, textual, Call.isTagged, Json.member?, LooksTagged]
      | true =>
          have keys : ∀ entry ∈ entries, entry.1.Inhabits key := fun entry member =>
            (typed.typed entry member).1
          have distinct := (keyText_nodup key entries textual fun entry member =>
            (keys entry member).2).mpr typed.distinct
          -- The entries become members under the texts of their keys.
          have named (name : String) : name ∈ (entries.map toJsonMember).map Prod.fst ↔
              ∃ entry ∈ entries, entry.1.text? = some name := by
            rw [List.map_map, List.mem_map]
            constructor
            · rintro ⟨entry, member, rfl⟩
              exact ⟨entry, member, (textual_key key entry.1 textual (keys entry member)).1⟩
            · rintro ⟨entry, member, text⟩
              exact ⟨entry, member, by simp [toJsonMember, keyText, text]⟩
          rw [toJson, if_pos textual, toJsonMembers_eq_map key entries textual keys, Call.isTagged,
            Bool.and_eq_true_iff, Json.member?_ofMembers _ _ distinct,
            Json.member?_ofMembers _ _ distinct, named, named]
          simp [LooksTagged, textual]

end Value

/-! Reading. -/

namespace Call

theorem readWritten_tagged (known : InterfaceSet) (interface name : String) (v : Value)
    (basic : v.ty.KeysBasic) (wellFormed : v.WellFormed) (portable : v.Portable) :
    readWritten known interface name (Value.variant v).toJson = .ok (.variant v.carried) := by
  have tagged : isTagged (Value.variant v).toJson = true :=
    (Value.isTagged_iff (.variant v) wellFormed).mpr trivial
  have read := Value.variant_read v basic (Value.json_returns v wellFormed portable)
  simp [readWritten, tagged, read]

theorem readWritten_bare (known : InterfaceSet) (interface name : String) (i : Interface)
    (p : Property) (v : Value) (found : known.find? interface = some i)
    (declared : i.property? name = some p) (typed : v.ty = p.ty) (wellFormed : v.WellFormed)
    (portable : v.Portable) (plain : ¬ v.LooksTagged) :
    readWritten known interface name v.toJson = .ok (.variant v.carried) := by
  have bare : isTagged v.toJson = false :=
    Bool.eq_false_iff.mpr (mt (Value.isTagged_iff v wellFormed).mp plain)
  have read := (Value.json_returns v wellFormed portable).read
  simp [readWritten, bare, found, declared, ← typed, read]

end Call

namespace JsonText

theorem whiteSpace_notDigit (c : Char) (white : Text.isWhiteSpace c = true) :
    c.isDigit = false := by
  by_contra digit
  have lower : '0'.val.toNat = 48 := rfl
  have upper : '9'.val.toNat = 57 := rfl
  simp only [Char.isDigit, Bool.not_eq_false, Bool.and_eq_true, decide_eq_true_eq, ge_iff_le,
    UInt32.le_iff_toNat_le] at digit
  simp only [Text.isWhiteSpace, Bool.or_eq_true, Bool.and_eq_true, decide_eq_true_eq, beq_iff_eq,
    Char.toNat] at white
  omega

theorem read_whiteSpace (fuel : Nat) (cs : List Char)
    (blank : ∀ c ∈ cs, Text.isWhiteSpace c = true) : read fuel cs = none := by
  cases fuel with
  | zero => rfl
  | succ fuel =>
      have left : ∀ c ∈ skipBlanks cs, Text.isWhiteSpace c = true := by
        intro c member
        exact blank c ((List.dropWhile_suffix _).subset member)
      rw [read]
      generalize skipBlanks cs = rest at left
      -- The last case is that of a number, which begins with a digit.
      split
      case h_8 =>
          cases rest with
          | nil => rfl
          | cons c rest =>
              have white := left c List.mem_cons_self
              have letter := whiteSpace_notDigit c white
              simp [readNumber, readDigits, letter]
      all_goals exact absurd (left _ List.mem_cons_self) (by decide)

theorem parse?_ofRead (text : String) (cs : List Char) (json : JsonText) (chars : text.toList = cs)
    (reads : read (2 * cs.length + 1) cs = some (json, [])) : parse? text = some json := by
  simp [parse?, chars, reads, skipBlanks]

end JsonText

theorem Request.ofLine?_blank (line : String) (blank : Text.isBlank line = true) :
    ofLine? line = none := by
  have white : ∀ c ∈ line.toList, Text.isWhiteSpace c = true := List.all_eq_true.mp blank
  simp [ofLine?, JsonText.parse?, JsonText.read_whiteSpace _ _ white]

/-- The request writes a property: it calls `Set` with the names of the interface and
of the property, and with the new value. -/
structure Request.Sets (r : Request) (path interface name : String) (value : Json) : Prop where
  command : r.command = "call"
  addressed : (r.params.member? "path").bind Json.text? = some path
  properties : (r.params.member? "interface").bind Json.text? = some Interface.propertiesName
  set : (r.params.member? "member").bind Json.text? = some "Set"
  arguments : r.params.member? "args" = some (.array [.string interface, .string name, value])

namespace Service

theorem requestedCall_sets (known : InterfaceSet) (r : Request) (path interface name : String)
    (json : Json) (value : Value) (sets : r.Sets path interface name json)
    (read : Call.readWritten known interface name json = .ok value) :
    requestedCall known r.params = .ok (path,
      ⟨Interface.propertiesName, "Set", [.string interface, .string name, value]⟩) := by
  simp [requestedCall, textParameter, callArguments, sets.addressed, sets.properties, sets.set,
    sets.arguments, Call.ofJson, Call.readPropertyCall, Call.readWrite, Json.text?, read, bind,
    Except.bind, Except.map]

theorem answer_sets (s : Service) (first second : Request) (path interface name : String)
    (json json' : Json) (value : Value) (sets : first.Sets path interface name json)
    (sets' : second.Sets path interface name json')
    (read : Call.readWritten s.simulation.known interface name json = .ok value)
    (read' : Call.readWritten s.simulation.known interface name json' = .ok value) :
    s.answer first = s.answer second := by
  have call := requestedCall_sets s.simulation.known first path interface name json value sets read
  have call' :=
    requestedCall_sets s.simulation.known second path interface name json' value sets' read'
  simp [answer, command, Service.call, sets.command, sets'.command, call, call']

theorem handleLine_request (s : Service) (line : String) (r : Request)
    (reads : Request.ofLine? line = some r) : s.handleLine line = (do
      let (outcome, after) ← s.answer r
      let (events, after) := after.takeEvents
      pure (events ++ [.response r.id outcome], after)) := by
  have written : Text.isBlank line = false := by
    by_contra blank
    rw [Request.ofLine?_blank line (by simpa using blank)] at reads
    cases reads
  simp [handleLine, written, reads]

/-- Two lines that write the same value, once as it is and once with its signature,
are handled alike: with the same lines in return, and the same session afterwards.
The type is one that a signature can tell, and the value does not look like a
variant by itself. -/
theorem handleLine_bare (s : Service) (bare tagged : String) (first second : Request)
    (path interface name : String) (i : Interface) (p : Property) (v : Value)
    (found : s.simulation.known.find? interface = some i) (declared : i.property? name = some p)
    (typed : v.ty = p.ty) (basic : p.ty.KeysBasic) (wellFormed : v.WellFormed)
    (portable : v.Portable) (plain : ¬ v.LooksTagged)
    (readsBare : Request.ofLine? bare = some first)
    (readsTagged : Request.ofLine? tagged = some second) (sameId : first.id = second.id)
    (setsBare : first.Sets path interface name v.toJson)
    (setsTagged : second.Sets path interface name
      (Json.ofMembers [("signature", .string p.ty.signature), ("value", v.toJson)])) :
    s.handleLine bare = s.handleLine tagged := by
  have one := Call.readWritten_bare s.simulation.known interface name i p v found declared typed
    wellFormed portable plain
  have other := Call.readWritten_tagged s.simulation.known interface name v (typed ▸ basic)
    wellFormed portable
  rw [Value.toJson, typed] at other
  rw [handleLine_request s bare first readsBare, handleLine_request s tagged second readsTagged,
    answer_sets s first second path interface name _ _ _ setsBare setsTagged one other, sameId]

end Service

/-! A box, to write its contents. -/

def boxKnown : InterfaceSet :=
  ⟨[⟨"test.Box", [], [], [⟨"Contents", .dict .string (.int .byte), .readWrite⟩]⟩]⟩

def box : Definition where
  path := "/box"
  names := []
  interfaces := ["test.Box"]
  data := [⟨"Contents", .dict .string (.int .byte), .dict .string (.int .byte) [], ⟨1, 1⟩⟩]
  states := ["Shut"]
  transitions := []
  position := ⟨1, 1⟩

def boxObject (contents : Value) (activity : Nat) : Object where
  machine := ⟨box, 0⟩
  env := [⟨"Contents", .dict .string (.int .byte), contents, .dict .string (.int .byte) []⟩]
  known := boxKnown
  builtins := Builtin.standard
  activity := activity
  registered := true
  held := []

def boxService (contents : Value) (activity : Nat) : Service where
  simulation :=
    { known := boxKnown
      builtins := Builtin.standard
      seed := 0
      bus := { Bus.empty with objects := [("/box", ["test.Box", Interface.propertiesName])] }
      objects := [boxObject contents activity] }
  session := "session"
  greeted := true

def emptyBox : Service := boxService (.dict .string (.int .byte) []) 0

def boxLine (contents : String) : String :=
  braced ("\"id\": 1, \"command\": \"call\", \"params\": " ++ braced
    ("\"path\": \"/box\", \"interface\": \"org.freedesktop.DBus.Properties\", \"member\": \"Set\", "
      ++ "\"args\": [\"test.Box\", \"Contents\", " ++ contents ++ "]"))

def boxTagged (contents : String) : String :=
  braced ("\"signature\": \"a\x7bsy\x7d\", \"value\": " ++ contents)

def boxRequest (contents : Json) : Request where
  id := .integer 1
  command := "call"
  params := .object
    [("args", .array [.string "test.Box", .string "Contents", contents]),
      ("interface", .string Interface.propertiesName), ("member", .string "Set"),
      ("path", .string "/box")]

theorem boxRequest_sets (contents : Json) :
    (boxRequest contents).Sets "/box" "test.Box" "Contents" contents :=
  ⟨rfl, rfl, rfl, rfl, rfl⟩

def boxCount (number : Nat) (inRange : (number : Int) ≤ 255) : Value :=
  .int .byte ⟨number, Int.natCast_nonneg number, inRange⟩

def apples : Value := .dict .string (.int .byte) [(.string "apples", boxCount 3 (by decide))]

def oddments : Value :=
  .dict .string (.int .byte)
    [(.string "signature", boxCount 1 (by decide)), (.string "value", boxCount 2 (by decide))]

theorem apples_plain : apples.WellFormed ∧ apples.Portable ∧ ¬ apples.LooksTagged := by
  refine ⟨?_, ?_, ?_⟩
  · simp [apples, boxCount, Value.WellFormed, Value.EntriesWellFormed, Value.ty]
  · simp [apples, boxCount, Value.Portable, Value.EntriesPortable, Ty.isBasic]
  · simp [apples, Value.LooksTagged, Value.text?]

section Lines

set_option maxRecDepth 10000

theorem apples_read :
    Request.ofLine? (boxLine (braced "\"apples\": 3")) = some (boxRequest apples.toJson) := by
  rw [Request.ofLine?, JsonText.parse?_ofRead _ ?cs ?parts ?chars ?reads]
  case chars =>
    simp only [boxLine, braced, String.toList_append]
    repeat rewrite [String.toList_ofList]
    rfl
  case reads => rfl
  rfl

theorem apples_tagged_read :
    Request.ofLine? (boxLine (boxTagged (braced "\"apples\": 3"))) =
      some (boxRequest (Value.variant apples).toJson) := by
  rw [Request.ofLine?, JsonText.parse?_ofRead _ ?cs ?parts ?chars ?reads]
  case chars =>
    simp only [boxLine, boxTagged, braced, String.toList_append]
    repeat rewrite [String.toList_ofList]
    rfl
  case reads => rfl
  rfl

theorem oddments_read :
    Request.ofLine? (boxLine (braced "\"signature\": 1, \"value\": 2")) =
      some (boxRequest oddments.toJson) := by
  rw [Request.ofLine?, JsonText.parse?_ofRead _ ?cs ?parts ?chars ?reads]
  case chars =>
    simp only [boxLine, braced, String.toList_append]
    repeat rewrite [String.toList_ofList]
    rfl
  case reads => rfl
  rfl

theorem oddments_tagged_read :
    Request.ofLine? (boxLine (boxTagged (braced "\"signature\": 1, \"value\": 2"))) =
      some (boxRequest (Value.variant oddments).toJson) := by
  rw [Request.ofLine?, JsonText.parse?_ofRead _ ?cs ?parts ?chars ?reads]
  case chars =>
    simp only [boxLine, boxTagged, braced, String.toList_append]
    repeat rewrite [String.toList_ofList]
    rfl
  case reads => rfl
  rfl

end Lines

theorem emptyBox_apples : emptyBox.handleLine (boxLine (braced "\"apples\": 3")) =
    emptyBox.handleLine (boxLine (boxTagged (braced "\"apples\": 3"))) :=
  Service.handleLine_bare emptyBox _ _ _ _ "/box" "test.Box" "Contents" _
    ⟨"Contents", .dict .string (.int .byte), .readWrite⟩ apples rfl rfl rfl ⟨rfl, trivial⟩
    apples_plain.1 apples_plain.2.1 apples_plain.2.2 apples_read apples_tagged_read rfl
    (boxRequest_sets _) (boxRequest_sets _)

def boxEvent (contents : Value) : ServiceLine :=
  .event ⟨"/box", Interface.propertiesName, "PropertiesChanged",
    .tuple [.string "test.Box",
      .dict .string .variant [(.string "Contents", .variant contents)], .array .string []]⟩

/-- Contents that look like a variant are refused as they are, and put into the box
once their signature stands beside them. -/
theorem emptyBox_oddments :
    emptyBox.handleLine (boxLine (braced "\"signature\": 1, \"value\": 2")) =
      pure ([.response (.integer 1)
        (.error (.bus (.unreadableArgument (.unreadable .variant oddments.toJson))))], emptyBox) ∧
    emptyBox.handleLine (boxLine (boxTagged (braced "\"signature\": 1, \"value\": 2"))) =
      pure ([boxEvent oddments,
        .response (.integer 1) (.ok (Json.ofMembers [("reply", .array [])]))],
        boxService oddments 1) := by
  constructor
  · rw [Service.handleLine_request _ _ _ oddments_read]
    rfl
  · rw [Service.handleLine_request _ _ _ oddments_tagged_read]
    rfl

end SimBus
