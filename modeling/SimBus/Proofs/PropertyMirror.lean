import SimBus.Proofs.CallDelivery
import SimBus.Proofs.ChangeSignals
import SimBus.Proofs.ResolvedMembers
import SimBus.Proofs.TransactionalCalls
import SimBus.Proofs.ValueEquality
/-!
Clients that mirror the properties of an object. A client that has read the
values once and applies the signals about changes, in the order in which they
were queued, knows the current values at any time. This takes two things: what
changes is announced, and nothing else looks like an announcement, so the object
must not implement the interface of these signals itself.
-/

namespace SimBus

open Draws (Branch)
open Statement (Executes)

/-- The interface whose properties have changed according to the signal, and
what it lists for them. -/
def Emission.change? (e : Emission) : Option (String × List (Value × Value)) :=
  if e.interface = Interface.propertiesName ∧ e.member = "PropertiesChanged" then
    match e.payload with
    | .tuple [.string interface, .dict _ _ entries, _] => some (interface, entries)
    | _ => none
  else none

abbrev Mirror := String → String → Option Value

namespace Mirror

def listed? (entries : List (Value × Value)) (name : String) : Option Value :=
  (Value.entry? (.string name) entries).map Object.unwrap

def apply (mirror : Mirror) (change : String × List (Value × Value)) : Mirror :=
  fun interface name =>
    if change.1 = interface then (listed? change.2 name).or (mirror interface name)
    else mirror interface name

def receive (mirror : Mirror) (e : Emission) : Mirror :=
  match e.change? with
  | some change => mirror.apply change
  | none => mirror

theorem foldl_receive (mirror : Mirror) (queued : List Emission) :
    queued.foldl receive mirror = (queued.filterMap Emission.change?).foldl apply mirror := by
  induction queued generalizing mirror with
  | nil => rfl
  | cons e rest ih =>
      rw [List.foldl_cons, ih]
      cases change : e.change? with
      | none => simp [receive, change]
      | some change' => simp [receive, change]

theorem foldl_apply (mirror : Mirror) (groups : List (String × List (Value × Value)))
    (distinct : (groups.map Prod.fst).Nodup) (interface name : String) :
    groups.foldl apply mirror interface name =
      (listed? ((groups.lookup interface).getD []) name).or (mirror interface name) := by
  induction groups generalizing mirror with
  | nil => rfl
  | cons group rest ih =>
      obtain ⟨own, entries⟩ := group
      obtain ⟨fresh, distinct⟩ := List.nodup_cons.mp distinct
      rw [List.foldl_cons, ih _ distinct]
      by_cases here : own = interface
      · subst here
        -- No later group may bring in another value again.
        have later : rest.lookup own = none := by
          cases found : rest.lookup own with
          | none => rfl
          | some entries =>
              have member := Object.mem_of_lookup rest own entries found
              exact absurd (List.mem_map_of_mem member) fresh
        simp [later, apply, listed?, Value.entry?]
      · have apart : (interface == own) = false := beq_eq_false_iff_ne.mpr (Ne.symm here)
        simp [List.lookup_cons, apart, apply, here]

end Mirror

namespace Object

def exposedValue? (o : Object) (interface name : String) : Option Value :=
  (o.exposedValues.find? fun entry => entry.1 == interface && entry.2.1 == name).map (·.2.2)

theorem exposedValue?_eq (o : Object) (interface name : String) :
    o.exposedValue? interface name =
      if (interface, name) ∈ o.exposed then some (o.env.valueOf name) else none := by
  rw [exposedValue?, exposedValues_eq_map]
  induction o.exposed with
  | nil => rfl
  | cons s rest ih =>
      by_cases here : s = (interface, name)
      · subst here
        simp
      · have apart : (s.1 == interface && s.2 == name) = false := by
          refine Bool.eq_false_iff.mpr fun both => here ?_
          simpa [Prod.ext_iff] using both
        simpa [apart, Ne.symm here] using ih

theorem listed?_differences (before after : Object) (interface name : String) :
    Mirror.listed? (differences before after interface) name =
      if (interface, name) ∈ before.exposed ∧ before.env.differs after.env name = true then
        some (after.env.valueOf name) else none := by
  rw [Mirror.listed?, differences]
  induction before.exposed with
  | nil => rfl
  | cons s rest ih =>
      obtain ⟨own, other⟩ := s
      by_cases listed : (own == interface && before.env.differs after.env other) = true
      · obtain ⟨here, differs⟩ := Bool.and_eq_true_iff.mp listed
        obtain rfl := beq_iff_eq.mp here
        have keys : (Value.string other == Value.string name) = (other == name) := rfl
        by_cases same : other = name
        · subst same
          simp [differs, propertyEntry, Value.entry?, keys, unwrap]
        · simpa [differs, propertyEntry, Value.entry?, keys, same, Ne.symm same] using ih
      · have unlike : ¬ ((interface, name) = (own, other) ∧
            before.env.differs after.env name = true) := by
          rintro ⟨same, differs⟩
          obtain ⟨rfl, rfl⟩ := Prod.mk.inj same
          exact listed (by simp [differs])
        rw [List.filter_cons, if_neg listed, ih]
        simp only [List.mem_cons, or_and_right, unlike, false_or]

/-- The two agree on which properties there are and on their values. -/
def Coheres (mirror : Mirror) (o : Object) : Prop :=
  ∀ interface name, match mirror interface name, o.exposedValue? interface name with
    | some held, some current => held.agrees current = true
    | none, none => True
    | _, _ => False

def succeeded : Except BusError Output → Bool
  | .ok output => (Output.error? output).isNone
  | .error _ => false

/-- A call or a tick, whether it changed the object, by a firing that ran to its
end or by writing a variable, and the signals that it queued. -/
inductive Step (o : Object) : (acted : Bool) → (queued : List Emission) → Object → Prop where
  | call {bus busAfter : Bus} {call : Call} {result : Except BusError Output} {after : Object}
      {queued : List Emission} :
      Branch (o.dispatch bus call) (result, after, busAfter) →
      busAfter.signals = bus.signals ++ queued →
      Step o (succeeded result && !call.reads) queued after
  | tick {bus busAfter : Bus} {result : Option (Except BusError Output)} {after : Object}
      {queued : List Emission} :
      Branch (o.tick bus) (result, after, busAfter) →
      busAfter.signals = bus.signals ++ queued → Step o (result.any succeeded) queued after

inductive Steps (o : Object) : List Emission → Object → Prop where
  | start : Steps o [] o
  | step {queued more : List Emission} {acted : Bool} {middle after : Object} :
      Steps o queued middle → Step middle acted more after → Steps o (queued ++ more) after

/-- What changed is announced: by one signal for each interface at most, which
lists the properties of this interface that differ. -/
structure Announces (o after : Object) (queued : List Emission) : Prop where
  readable : ∀ e ∈ queued, e.interface = Interface.propertiesName → e.change?.isSome = true
  once : ((queued.filterMap Emission.change?).map Prod.fst).Nodup
  exact : ∀ interface entries, (interface, entries) ∈ queued.filterMap Emission.change? ↔
    entries = differences o after interface ∧ entries ≠ []

/-- Nothing changed, and nothing is announced. -/
structure Silent (o after : Object) (queued : List Emission) : Prop where
  data : after.env = o.env
  quiet : ∀ e ∈ queued, e.interface ≠ Interface.propertiesName

structure Steady (o after : Object) : Prop where
  registered : after.registered = o.registered
  definition : after.definition = o.definition
  known : after.known = o.known
  frame : after.env.frame = o.env.frame

theorem steady_refl (o : Object) : Steady o o := ⟨rfl, rfl, rfl, rfl⟩

theorem steady_trans (o middle after : Object) (first : Steady o middle)
    (second : Steady middle after) : Steady o after :=
  ⟨second.registered.trans first.registered, second.definition.trans first.definition,
    second.known.trans first.known, second.frame.trans first.frame⟩

/-! One step. -/

theorem change?_eq_none (e : Emission) (other : e.interface ≠ Interface.propertiesName) :
    e.change? = none := by
  rw [Emission.change?, if_neg fun both => other both.1]

theorem filterMap_change?_eq_nil (queued : List Emission)
    (others : ∀ e ∈ queued, e.interface ≠ Interface.propertiesName) :
    queued.filterMap Emission.change? = [] :=
  List.filterMap_eq_nil_iff.mpr fun e member => change?_eq_none e (others e member)

variable {o after : Object}

theorem effects_quiet (linked : o.definition.Linked o.known)
    (plain : Interface.propertiesName ∉ o.definition.interfaces) (t : Transition)
    (member : t ∈ o.definition.transitions) (locals : List (String × Value))
    (body : List Statement) (env env' : Environment) (effects : Output)
    (executes : Executes o.builtins locals body env effects env')
    (inBody : ∀ s ∈ body, s ∈ t.body) :
    ∀ e ∈ o.sent effects, e.interface ≠ Interface.propertiesName := by
  intro e queued
  unfold sent at queued
  split at queued
  · obtain ⟨s, listed, rfl⟩ := List.mem_map.mp queued
    obtain ⟨payload, emits⟩ := Statement.executes_emits executes s listed
    intro properties
    have same : s.1 = Interface.propertiesName := properties
    exact plain (same ▸ linked.emits t member s.1 s.2.1 payload (inBody _ emits))
  · cases queued

theorem sent_append (first second : Output) :
    o.sent (first ++ second) = o.sent first ++ o.sent second := by
  unfold sent
  split <;> simp [Output.signals_append]

theorem announcements_change? (registered : o.registered = true) (after : Object) :
    (o.sent (announcements o after)).map Emission.change? =
      (changes o.exposedValues after.exposedValues []).map some := by
  rw [sent, if_pos registered, announcements]
  induction changes o.exposedValues after.exposedValues [] with
  | nil => rfl
  | cons change rest ih =>
      rw [List.map_cons, List.map_cons, ← ih]
      rfl

theorem announced (registered : o.registered = true) (same : after.exposed = o.exposed)
    (effects : Output)
    (quiet : ∀ e ∈ o.sent effects, e.interface ≠ Interface.propertiesName) :
    Announces o after (o.sent (effects ++ announcements o after)) := by
  have told := announcements_change? registered after
  have listed : (o.sent (effects ++ announcements o after)).filterMap Emission.change? =
      changes o.exposedValues after.exposedValues [] := by
    rw [sent_append, List.filterMap_append, filterMap_change?_eq_nil _ quiet, List.nil_append]
    have read := congrArg (List.filterMap id) told
    simpa [List.filterMap_map] using read
  constructor
  · intro e member properties
    rw [sent_append] at member
    rcases List.mem_append.mp member with own | appended
    · exact absurd properties (quiet e own)
    · have made : e.change? ∈ (changes o.exposedValues after.exposedValues []).map some :=
        told ▸ List.mem_map_of_mem appended
      obtain ⟨change, -, is⟩ := List.mem_map.mp made
      rw [← is]
      rfl
  · rw [listed]
    exact changes_distinct o after same
  · intro interface entries
    rw [listed]
    exact mem_changes_iff o after same interface entries

theorem queued_eq (bus busAfter : Bus) (queued sent : List Emission)
    (queue : busAfter.signals = bus.signals ++ queued) (after : busAfter = bus.queue sent) :
    queued = sent := by
  subst after
  exact (List.append_cancel_left queue).symm

theorem silent_nothing (bus : Bus) (queued : List Emission)
    (queue : bus.signals = bus.signals ++ queued) : Steady o o ∧ Silent o o queued := by
  obtain rfl : queued = [] := by simpa using queue
  exact ⟨steady_refl o, rfl, by simp⟩

/-- What a step comes to, by whether it changed the object. -/
def Outcome (o : Object) (acted : Bool) (queued : List Emission) (after : Object) : Prop :=
  Steady o after ∧ if acted then Announces o after queued else Silent o after queued

theorem handles_outcome (linked : o.definition.Linked o.known)
    (plain : Interface.propertiesName ∉ o.definition.interfaces) (registered : o.registered = true)
    (bus busAfter : Bus) (trigger : Trigger) (arguments : List Value)
    (result : Except BusError Output) (queued : List Emission)
    (handles : Handles o bus trigger arguments result after busAfter)
    (queue : busAfter.signals = bus.signals ++ queued) :
    Outcome o (succeeded result) queued after := by
  cases handles with
  | refused e => exact silent_nothing bus queued queue
  -- What was assigned in front of the error is taken back, and its signals are sent.
  | @raised _ t locals before rest s effects middle name text reacts _ split executes _ =>
      obtain rfl := queued_eq bus _ queued _ queue rfl
      have failed : succeeded (.ok (effects ++ [.error name text])) = false := by
        simp [succeeded, Output.error?_ended effects name text (Statement.executes_error? executes)]
      rw [Outcome, failed]
      exact ⟨⟨rfl, rfl, rfl, rfl⟩, rfl, effects_quiet linked plain t reacts.member
        locals before o.env middle effects executes fun s inFront => by simp [split, inFront]⟩
  | @completed _ t locals effects env reacts _ executes =>
      obtain rfl := queued_eq bus _ queued _ queue rfl
      have quiet := effects_quiet linked plain t reacts.member locals t.body o.env env effects
        executes fun _ inBody => inBody
      have frame : env.frame = o.env.frame := Statement.executes_frame executes
      have done : succeeded (.ok (effects ++ announcements o (o.moved t.target env))) = true := by
        simp [succeeded, error?_announced effects o _ (Statement.executes_error? executes)]
      rw [Outcome, done]
      exact ⟨⟨rfl, rfl, rfl, frame⟩, announced registered
        (exposed_frame o (o.moved t.target env) rfl rfl frame) effects quiet⟩

theorem succeeded_acknowledge (result : Except BusError Output) :
    succeeded (result.map acknowledge) = succeeded result := by
  cases result with
  | error e => rfl
  | ok output => simp [succeeded, Except.map, acknowledge_error?]

theorem step_outcome (linked : o.definition.Linked o.known)
    (plain : Interface.propertiesName ∉ o.definition.interfaces) (registered : o.registered = true)
    (acted : Bool) (queued : List Emission) (step : Step o acted queued after) :
    Outcome o acted queued after := by
  cases step with
  | @call bus busAfter call result _ _ branch queue =>
      cases dispatch_answers o bus call result after busAfter branch with
      | refused e => exact silent_nothing bus queued queue
      | read payload reads =>
          rw [reads, Bool.not_true, Bool.and_false]
          exact silent_nothing bus queued queue
      | called writes _ handles =>
          rw [writes, Bool.not_false, Bool.and_true]
          exact handles_outcome linked plain registered bus busAfter _ _ result queued handles queue
      | written writes _ _ handles =>
          rw [writes, Bool.not_false, Bool.and_true, succeeded_acknowledge]
          exact handles_outcome linked plain registered bus busAfter _ _ _ queued handles queue
      | @assigned _ name value env output writes _ _ _ assigned same =>
          subst same
          obtain rfl := queued_eq bus _ queued _ queue rfl
          have frame : env.frame = o.env.frame := Environment.assign_frame _ _ _ _ assigned
          have done : succeeded (.ok (acknowledge
              (announcements o (o.moved o.machine.current env)))) = true := by
            simp [succeeded, acknowledge_error?, announcements_error?]
          rw [writes, done]
          have same := exposed_frame o (o.moved o.machine.current env) rfl rfl frame
          have silent : ∀ e ∈ o.sent [], e.interface ≠ Interface.propertiesName := by
            simp [sent, Output.signals]
          exact ⟨⟨rfl, rfl, rfl, frame⟩, announced registered same [] silent⟩
  | @tick bus busAfter result _ _ branch queue =>
      rcases tick_cases o bus result after busAfter branch with
        ⟨rfl, rfl, rfl⟩ | ⟨answer, rfl, handles⟩
      · exact silent_nothing _ queued queue
      · exact handles_outcome linked plain registered _ _ _ _ answer queued handles queue

/-! Mirrors along steps. -/

theorem announces_lookup (queued : List Emission) (announces : Announces o after queued)
    (interface : String) :
    ((queued.filterMap Emission.change?).lookup interface).getD [] =
      differences o after interface := by
  cases found : (queued.filterMap Emission.change?).lookup interface with
  | some entries =>
      have member := mem_of_lookup _ interface entries found
      exact ((announces.exact interface entries).mp member).1
  | none =>
      by_contra differs
      have member := (announces.exact interface _).mpr ⟨rfl, Ne.symm differs⟩
      cases found.symm.trans (lookup_of_mem _ interface _ announces.once member)

theorem announces_coheres (mirror : Mirror) (queued : List Emission)
    (same : after.exposed = o.exposed) (announces : Announces o after queued)
    (coheres : Coheres mirror o) : Coheres (queued.foldl Mirror.receive mirror) after := by
  intro interface name
  have before := coheres interface name
  rw [exposedValue?_eq] at before
  rw [Mirror.foldl_receive, Mirror.foldl_apply _ _ announces.once, announces_lookup _ announces,
    listed?_differences, exposedValue?_eq, same]
  by_cases exposed : (interface, name) ∈ o.exposed
  · simp only [exposed, ↓reduceIte, true_and] at before ⊢
    cases differs : o.env.differs after.env name with
    | true => exact Value.agrees_refl _
    | false =>
        -- What does not differ is still what the mirror held before.
        have equal : (o.env.valueOf name == after.env.valueOf name) = true := by
          simpa [Environment.differs] using differs
        cases held : mirror interface name with
        | none => simp [held] at before
        | some value =>
            rw [held] at before
            exact Value.agrees_beq value _ _ before equal
  · simp only [exposed, ↓reduceIte, false_and] at before ⊢
    cases held : mirror interface name with
    | none => trivial
    | some value => simp [held] at before

theorem silent_coheres (mirror : Mirror) (queued : List Emission)
    (same : after.exposed = o.exposed) (silent : Silent o after queued)
    (coheres : Coheres mirror o) : Coheres (queued.foldl Mirror.receive mirror) after := by
  rw [Mirror.foldl_receive, filterMap_change?_eq_nil queued silent.quiet]
  intro interface name
  have before := coheres interface name
  rw [exposedValue?_eq] at before ⊢
  rw [same, silent.data]
  exact before

theorem start_coheres (o : Object) : Coheres o.exposedValue? o := by
  intro interface name
  cases held : o.exposedValue? interface name with
  | none => trivial
  | some value => exact Value.agrees_refl value

theorem steps_coheres (linked : o.definition.Linked o.known)
    (plain : Interface.propertiesName ∉ o.definition.interfaces) (registered : o.registered = true)
    (queued : List Emission) (steps : Steps o queued after) :
    Steady o after ∧ Coheres (queued.foldl Mirror.receive o.exposedValue?) after := by
  induction steps with
  | start => exact ⟨steady_refl o, start_coheres o⟩
  | @step queued more acted middle after _ step ih =>
      obtain ⟨steady, coheres⟩ := ih
      obtain ⟨steady', changed⟩ := step_outcome (steady.definition ▸ steady.known ▸ linked)
        (steady.definition ▸ plain) (steady.registered.trans registered) acted more step
      have same := exposed_frame middle after steady'.definition steady'.known steady'.frame
      refine ⟨steady_trans o middle after steady steady', ?_⟩
      -- What was queued first is applied first.
      rw [List.foldl_append]
      cases acted with
      | true => exact announces_coheres _ more same changed coheres
      | false => exact silent_coheres _ more same changed coheres

/-- A registered object of an accepted program, in any state that a run has
brought it to, can be mirrored from there on; each step announces what it
changed, interface by interface, or changes nothing. -/
theorem reached_mirrored (table : BuiltinTable) (known : InterfaceSet) (text : String)
    (program : Program) (d : Definition) (o : Object)
    (accepted : Program.parse table known text = .ok program) (member : d ∈ program.definitions)
    (plain : Interface.propertiesName ∉ d.interfaces)
    (reached : Reached d known table (fun _ => True) o) (registered : o.registered = true) :
    ∀ queued middle, Steps o queued middle →
      Coheres (queued.foldl Mirror.receive o.exposedValue?) middle ∧
      ∀ acted more after, Step middle acted more after →
        if acted then Announces middle after more else Silent middle after more := by
  obtain ⟨raw, ctx, resolved⟩ :=
    Resolution.parse_resolved table known text program d accepted member
  have linked := Resolution.resolved_linked resolved
  obtain ⟨rfl, rfl⟩ := reached_constant d known table _ o reached
  intro queued middle steps
  obtain ⟨steady, coheres⟩ := steps_coheres linked plain registered queued steps
  refine ⟨coheres, fun acted more after step => ?_⟩
  exact (step_outcome (steady.definition ▸ steady.known ▸ linked) (steady.definition ▸ plain)
    (steady.registered.trans registered) acted more step).2

/-! A hatch that tells whether it is shut, and can be forced open. -/

def hatchText : String :=
  "object at /hatch implements test.Hatch " ++ braced
    ("data " ++ braced "shut : b = true;" ++ "states " ++ braced "closed; open;" ++
      "transition from closed to open on method Force " ++ braced "shut = false; reply();")

def hatchKnown : InterfaceSet :=
  ⟨[⟨"test.Hatch", [⟨"Force", [], []⟩], [], [⟨"shut", .bool, .read⟩]⟩]⟩

def hatch : Definition where
  path := "/hatch"
  names := []
  interfaces := ["test.Hatch"]
  data := [⟨"shut", .bool, .literal (.bool true), ⟨1, 49⟩⟩]
  states := ["closed", "open"]
  transitions := [⟨0, 1, .method "test.Hatch" "Force", [], [],
    [.assign "shut" (.literal (.bool false)), .reply (.tuple [])], ⟨1, 91⟩⟩]
  position := ⟨1, 1⟩

set_option maxRecDepth 100000 in
theorem hatch_parsed :
    Program.parse Builtin.standard hatchKnown hatchText = .ok ⟨[hatch], []⟩ := by
  rw [Program.parse_ofRead _ _ _ ?cs ?raw ?after ?chars ?reads]
  case chars =>
    unfold hatchText braced
    simp only [String.toList_append]
    repeat rewrite [String.toList_ofList]
    rfl
  case reads =>
    cbv
    rfl
  rfl

def hatchOnBus (current : Nat) (shut : Bool) (activity : Nat) : Object where
  machine := ⟨hatch, current⟩
  env := [⟨"shut", .bool, .bool shut, .bool true⟩]
  known := hatchKnown
  builtins := Builtin.standard
  activity := activity
  registered := true
  held := []

theorem hatchOnBus_reached (good : Value → Prop) :
    Reached hatch hatchKnown Builtin.standard good (hatchOnBus 0 true 0) := by
  have created : Reached hatch hatchKnown Builtin.standard good
      { hatchOnBus 0 true 0 with registered := false } := .created (.done _)
  have registered : Object.register { hatchOnBus 0 true 0 with registered := false } Bus.empty =
      (.ok (hatchOnBus 0 true 0), _) := rfl
  exact .operated created (.register registered)

theorem hatch_forced_mirrored :
    ∃ e, Steps (hatchOnBus 0 true 0) [e] (hatchOnBus 1 false 1) ∧
      Coheres (Mirror.receive (hatchOnBus 0 true 0).exposedValue? e) (hatchOnBus 1 false 1) := by
  have branch := Draws.run_branch Draws.listedAnswers
    ((hatchOnBus 0 true 0).dispatch Bus.empty ⟨"test.Hatch", "Force", []⟩) []
  have forced : Step (hatchOnBus 0 true 0) true
      [⟨"/hatch", Interface.propertiesName, "PropertiesChanged", .tuple [.string "test.Hatch",
        .dict .string .variant [(.string "shut", .variant (.bool false))], .array .string []]⟩]
      (hatchOnBus 1 false 1) := .call branch rfl
  have steps := Steps.step .start forced
  exact ⟨_, steps, (reached_mirrored Builtin.standard hatchKnown hatchText ⟨[hatch], []⟩ hatch _
    hatch_parsed (List.mem_singleton_self hatch) (by decide)
    (hatchOnBus_reached _) rfl _ _ steps).1⟩

end Object

end SimBus
