import SimBus.Proofs.CallDelivery
import SimBus.Proofs.ChangeSignals
import SimBus.Proofs.ConformingData
import SimBus.Proofs.TransactionalCalls
import SimBus.Proofs.TypedDefinitions
/-!
The types of exposed properties. A property stands for the variable of its name,
whatever type the interface gives it, so what clients are told about it has the
type of the variable. A write has to have the type of the property first, and is
then refused by a variable of another type.
-/

namespace SimBus

open Draws (Branch branch_pure_triple)
open Statement (Executes Raises)

namespace Definition

/-- Entries for readable properties of the interface, each with a value of the type
that the program gives to the variable behind it. -/
def Lists (d : Definition) (i : Interface) (entries : List (Value × Value)) : Prop :=
  ∀ entry ∈ entries, ∃ p ∈ i.properties, ∃ value, entry = Object.propertyEntry p.name value ∧
    p.access.readable = true ∧ d.dataType? p.name = some value.ty

end Definition

namespace Environment

variable {good : Value → Prop} {env : Environment} {d : Definition}

theorem conforms_binding? (conforms : env.Conforms good d.data) (name : String) (b : Binding)
    (found : env.binding? name = some b) : d.dataType? name = some b.ty := by
  have same := declared_binding? conforms.declared name
  rw [found, List.find?_map] at same
  obtain ⟨declared, here, entry⟩ := Option.map_eq_some_iff.mp same.symm
  exact Option.map_eq_some_iff.mpr ⟨declared, here, congrArg Prod.snd entry⟩

theorem conforms_lookup (conforms : env.Conforms good d.data) (name : String) (value : Value)
    (found : env.lookup name = .ok value) : d.dataType? name = some value.ty := by
  unfold lookup at found
  split at found
  · next b here =>
      obtain rfl := Except.ok.inj found
      obtain ⟨member, -⟩ := binding?_member env name b here
      rw [conforms_binding? conforms name b here, (conforms.values b member).2]
  · cases found

theorem binds_lookup (name : String) (bound : env.binds name = true) :
    env.lookup name = .ok (env.valueOf name) := by
  obtain ⟨b, found⟩ := Option.isSome_iff_exists.mp bound
  simp [valueOf, lookup, found]

end Environment

namespace Object

/-- A signal that lists properties of an implemented interface. -/
def ListsChange (o : Object) (s : String × String × Value) : Prop :=
  ∃ i entries, o.implemented? i.name = some i ∧ o.definition.Lists i entries ∧
    s = (Interface.propertiesName, "PropertiesChanged",
      .tuple [.string i.name, .dict .string .variant entries, .array .string []])

/-- Where the signals of an answer come from: from the statements of a transition, up to
the one that raises an error or all of them, and then from the object, which compares its
properties with those of before. An assignment has the object's own signals alone. -/
inductive Tells (o : Object) (stimulus : Option Trigger) :
    Object → Option (String × String) → List (String × String × Value) → Prop where
  | read : Tells o stimulus o none []
  | raised {t : Transition} {locals : List (String × Value)} {before rest : List Statement}
      {s : Statement} {effects : Output} {middle : Environment} {name text : String} :
      o.Engages stimulus t locals → t.body = before ++ s :: rest →
      Executes o.builtins locals before o.env effects middle →
      Raises o.builtins locals middle s name text →
      Tells o stimulus (o.moved o.machine.current o.env) (some (name, text)) effects.signals
  | completed {t : Transition} {locals : List (String × Value)} {effects : Output}
      {env : Environment} :
      o.Engages stimulus t locals → Executes o.builtins locals t.body o.env effects env →
      Tells o stimulus (o.moved t.target env) none
        (effects.signals ++ Output.signals (announcements o (o.moved t.target env)))
  | assigned {name : String} {value : Value} {env : Environment} :
      o.env.assign name value = .ok env →
      Tells o stimulus (o.moved o.machine.current env) none
        (Output.signals (announcements o (o.moved o.machine.current env)))

/-- The signals of an answer are sent as they are, and those that the object adds of its
own list what has changed. -/
structure Reports (o : Object) (bus : Bus) (stimulus : Option Trigger) (output : Output)
    (after : Object) (busAfter : Bus) : Prop where
  sent : busAfter = bus.queue (o.sent output)
  told : o.Tells stimulus after output.error? output.signals
  listed : ∀ s ∈ Output.signals (announcements o after), o.ListsChange s

variable {good : Value → Prop} {o after : Object} {bus busAfter : Bus}

/-! What is listed. -/

theorem implemented?_of_mem (i : Interface)
    (member : i ∈ o.definition.interfaces.filterMap o.known.find?) :
    o.implemented? i.name = some i := by
  obtain ⟨name, listed, found⟩ := List.mem_filterMap.mp member
  obtain rfl := o.known.find?_name name i found
  exact (implemented?_eq_some_iff o i.name i).mpr ⟨listed, found⟩

theorem readableValues_lists (conforms : o.env.Conforms good o.definition.data) (i : Interface) :
    o.definition.Lists i ((o.readableValues i).map fun entry => propertyEntry entry.1 entry.2) := by
  intro entry member
  obtain ⟨⟨name, value⟩, listed, rfl⟩ := List.mem_map.mp member
  rw [readableValues_eq_map] at listed
  obtain ⟨p, inInterface, same⟩ := List.mem_map.mp listed
  obtain ⟨rfl, rfl⟩ := Prod.mk.inj same
  obtain ⟨declared, passes⟩ := List.mem_filter.mp inInterface
  obtain ⟨readable, bound⟩ := Bool.and_eq_true_iff.mp passes
  exact ⟨p, declared, _, rfl, readable,
    Environment.conforms_lookup conforms p.name _ (Environment.binds_lookup p.name bound)⟩

/-- An announcement is about one interface, so its entries are those of this interface. -/
theorem announcements_listed (o after : Object) (definition : after.definition = o.definition)
    (known : after.known = o.known) (frame : after.env.frame = o.env.frame)
    (conforms : after.env.Conforms good o.definition.data) :
    ∀ s ∈ Output.signals (announcements o after), o.ListsChange s := by
  have same := exposed_frame o after definition known frame
  have all : ∀ change ∈ changes o.exposedValues after.exposedValues [], ∃ i,
      change.1 = i.name ∧ o.implemented? i.name = some i ∧ o.definition.Lists i change.2 := by
    rintro ⟨interface, entries⟩ member
    obtain ⟨rfl, inhabited⟩ := (mem_changes_iff o after same interface entries).mp member
    -- Every entry comes from an interface of this name, and there is only one.
    have entry : ∀ e ∈ differences o after interface, ∃ i, interface = i.name ∧
        o.implemented? i.name = some i ∧ o.definition.Lists i [e] := by
      intro e listed
      obtain ⟨⟨own, name⟩, differs, rfl⟩ := List.mem_map.mp listed
      obtain ⟨exposed, here⟩ := List.mem_filter.mp differs
      obtain rfl := beq_iff_eq.mp (Bool.and_eq_true_iff.mp here).1
      obtain ⟨i, inDefinition, inInterface⟩ := List.mem_flatMap.mp exposed
      obtain ⟨p, passes, pair⟩ := List.mem_map.mp inInterface
      obtain ⟨rfl, rfl⟩ := Prod.mk.inj pair
      obtain ⟨declared, readable⟩ := List.mem_filter.mp passes
      obtain ⟨readable, bound⟩ := Bool.and_eq_true_iff.mp readable
      rw [← Environment.binds_frame o.env after.env frame] at bound
      refine ⟨i, rfl, implemented?_of_mem i inDefinition, ?_⟩
      rintro _ (_ | ⟨_, none⟩)
      · exact ⟨p, declared, _, rfl, readable,
          Environment.conforms_lookup conforms p.name _ (Environment.binds_lookup p.name bound)⟩
      · cases none
    obtain ⟨first, isEntry⟩ := List.exists_mem_of_ne_nil _ inhabited
    obtain ⟨i, rfl, implemented, -⟩ := entry first isEntry
    refine ⟨i, rfl, implemented, ?_⟩
    intro e isEntry
    obtain ⟨j, sameName, implemented', lists⟩ := entry e isEntry
    rw [← sameName] at implemented'
    obtain rfl := Option.some.inj (implemented.symm.trans implemented')
    exact lists e (List.mem_singleton_self e)
  intro s announced
  rw [announcements] at announced
  generalize changes o.exposedValues after.exposedValues [] = groups at all announced
  induction groups with
  | nil => cases announced
  | cons change rest ih =>
      obtain ⟨here, others⟩ := List.forall_mem_cons.mp all
      rcases List.mem_cons.mp announced with rfl | later
      · obtain ⟨i, named, implemented, lists⟩ := here
        exact ⟨i, change.2, implemented, lists, by rw [named]⟩
      · exact ih others later

/-! Reading. -/

theorem dispatch_get (interface name : String) (output : Output)
    (conforms : o.env.Conforms good o.definition.data)
    (branch : Branch
      (o.dispatch bus ⟨Interface.propertiesName, "Get", [.string interface, .string name]⟩)
      (.ok output, after, busAfter)) :
    ∃ i p value, o.implemented? interface = some i ∧ i.property? name = some p ∧
      p.access.readable = true ∧ output = [.reply (.tuple [.variant value])] ∧
      o.definition.dataType? name = some value.ty := by
  have answered : o.getProperty interface name = .ok output := (branch_pure_triple branch).1.symm
  obtain ⟨⟨i, p⟩, found, answered⟩ := (except_bind_ok_iff _ _ _).mp answered
  obtain ⟨implemented, declared⟩ := (property_ok_iff o interface name i p).mp found
  simp only at answered
  split at answered
  · next readable =>
      obtain ⟨value, read, answered⟩ := (except_bind_ok_iff _ _ _).mp answered
      obtain rfl := Except.ok.inj answered
      refine ⟨i, p, value, implemented, declared, readable, rfl, ?_⟩
      have named := i.property?_name name p declared
      unfold propertyValue at read
      split at read
      · next found =>
          obtain rfl := Except.ok.inj read
          exact named ▸ Environment.conforms_lookup conforms p.name _ found
      · cases read
  · cases answered

theorem dispatch_getAll (interface : String) (output : Output)
    (conforms : o.env.Conforms good o.definition.data)
    (branch : Branch (o.dispatch bus ⟨Interface.propertiesName, "GetAll", [.string interface]⟩)
      (.ok output, after, busAfter)) :
    ∃ i entries, o.implemented? interface = some i ∧ o.definition.Lists i entries ∧
      output = [.reply (.tuple [.dict .string .variant entries])] := by
  have answered : o.getAllProperties interface = .ok output := (branch_pure_triple branch).1.symm
  unfold getAllProperties at answered
  split at answered
  · cases answered
  · next i implemented =>
      obtain rfl := Except.ok.inj answered
      exact ⟨i, _, implemented, readableValues_lists conforms i, rfl⟩

/-! Acting. -/

theorem reports_acknowledged (stimulus : Option Trigger) (output : Output)
    (reports : o.Reports bus stimulus output after busAfter) :
    o.Reports bus stimulus (acknowledge output) after busAfter := by
  obtain ⟨sent, told, listed⟩ := reports
  rw [← acknowledge_error?, ← acknowledge_signals] at told
  exact ⟨(acknowledge_sent o output).symm ▸ sent, told, listed⟩

theorem handles_reports (conforms : o.env.Conforms (fun _ => True) o.definition.data)
    (trigger : Trigger) (arguments : List Value) (output : Output)
    (handles : Handles o bus trigger arguments (.ok output) after busAfter) :
    o.Reports bus (some trigger) output after busAfter := by
  cases handles with
  | @raised place t locals before rest s effects middle name text reacts _ split executes raises =>
      have told : o.Tells (some trigger) (o.moved o.machine.current o.env) (some (name, text))
          effects.signals := .raised ⟨trigger, arguments, place, rfl, reacts⟩ split executes raises
      have failed := Output.error?_ended effects name text (Statement.executes_error? executes)
      rw [← failed, ← effects.signals_ended name text] at told
      exact ⟨by rw [sent_raised], told, announcements_listed o _ rfl rfl rfl conforms⟩
  | @completed place t locals effects env reacts _ executes =>
      have told : o.Tells (some trigger) (o.moved t.target env) none
          (effects.signals ++ Output.signals (announcements o (o.moved t.target env))) :=
        .completed ⟨trigger, arguments, place, rfl, reacts⟩ executes
      have succeeds := error?_announced effects o (o.moved t.target env)
        (Statement.executes_error? executes)
      rw [← succeeds, ← Output.signals_append] at told
      have conforms' : env.Conforms (fun _ => True) o.definition.data :=
        Definition.executes_conforms locals t.body o.env env effects executes
          (fun _ _ _ _ _ _ _ => trivial) conforms
      exact ⟨rfl, told, announcements_listed o (o.moved t.target env) rfl rfl
        (Statement.executes_frame executes) conforms'⟩

theorem answers_reports (conforms : o.env.Conforms (fun _ => True) o.definition.data) (call : Call)
    (result : Except BusError Output) (answers : Answers o bus call result after busAfter)
    (output : Output) (succeeds : result = .ok output) :
    o.Reports bus (o.stimulus? call) output after busAfter := by
  cases answers with
  | refused => cases succeeds
  | read payload =>
      obtain rfl := Except.ok.inj succeeds
      have silent : o.sent [.reply payload] = [] := by simp [sent, Output.signals]
      exact ⟨by rw [silent, Bus.queue_nil], .read, announcements_listed o o rfl rfl rfl conforms⟩
  | called _ stimulus handles =>
      subst succeeds
      rw [stimulus]
      exact handles_reports conforms _ _ output handles
  | written _ stimulus _ handles =>
      obtain ⟨inner, rfl, rfl⟩ := (except_map_ok_iff _ _ _).mp succeeds
      rw [stimulus]
      exact reports_acknowledged _ inner (handles_reports conforms _ _ inner handles)
  | @assigned _ name value env told _ _ _ _ assigned same =>
      obtain rfl := Except.ok.inj succeeds
      subst same
      have reported : o.Tells (o.stimulus? call) (o.moved o.machine.current env) none _ :=
        .assigned assigned
      rw [← announcements_error? o] at reported
      have announced := announcements_listed o (o.moved o.machine.current env) rfl rfl
        (Environment.assign_frame _ _ _ _ assigned)
        (Environment.assign_conforms name _ conforms trivial assigned)
      exact reports_acknowledged _ _ ⟨rfl, reported, announced⟩

theorem tick_reports (conforms : o.env.Conforms (fun _ => True) o.definition.data) (output : Output)
    (branch : Branch (o.tick bus) (some (.ok output), after, busAfter)) :
    o.Reports bus (some .arbitrary) output after busAfter := by
  rcases tick_cases o bus _ after busAfter branch with ⟨nothing, -, -⟩ | ⟨answer, same, handles⟩
  · cases nothing
  · obtain rfl := Option.some.inj same
    exact handles_reports conforms _ _ output handles

theorem dispatch_set (interface : String) (i : Interface) (p : Property) (value : Value) (ty : Ty)
    (conforms : o.env.Conforms (fun _ => True) o.definition.data)
    (implemented : o.implemented? interface = some i) (found : i.property? p.name = some p)
    (writable : p.access.writable = true) (typed : value.ty = p.ty)
    (passive : o.machine.accepts (.property i.name p.name) = false)
    (declared : o.definition.dataType? p.name = some ty) (result : Except BusError Output)
    (branch : Branch (o.dispatch bus ⟨Interface.propertiesName, "Set",
      [.string interface, .string p.name, .variant value]⟩) (result, after, busAfter)) :
    if ty = p.ty then ∃ output, result = .ok output
    else result = .error (.notAssignable (.typeMismatch p.name ty p.ty)) := by
  have writes : o.WritesProperty ⟨Interface.propertiesName, "Set",
      [.string interface, .string p.name, .variant value]⟩ i p value :=
    ⟨rfl, rfl, rfl,
      ⟨_, _, _, rfl, (property_ok_iff o interface p.name i p).mpr ⟨implemented, found⟩, rfl⟩,
      writable, typed⟩
  rw [dispatch_assigned o bus _ i p value writes passive] at branch
  -- The value has the type of the property; what is left is the check of the variable.
  cases bound : o.env.binding? p.name with
  | none =>
      have same := Environment.declared_binding? conforms.declared p.name
      rw [bound, List.find?_map] at same
      obtain ⟨v, here, -⟩ := Option.map_eq_some_iff.mp declared
      simp [here] at same
  | some b =>
      have sameTy : b.ty = ty := Option.some.inj
        ((Environment.conforms_binding? conforms p.name b bound).symm.trans declared)
      have read : o.propertyValue p = .ok b.value := by
        simp [propertyValue, Environment.lookup, bound]
      by_cases fits : ty = p.ty
      · have assigned : o.env.assign p.name value = .ok (o.env.put { b with value := value }) :=
          (Environment.assign_ok_iff _ _ _ _).mpr
            ⟨b, bound, typed.trans (fits.symm.trans sameTy.symm), rfl⟩
        simp only [assignProperty, read, assigned] at branch
        obtain ⟨rfl, -, -⟩ := branch_pure_triple branch
        rw [if_pos fits]
        exact ⟨_, rfl⟩
      · have refused : o.env.assign p.name value = .error (.typeMismatch p.name ty p.ty) := by
          simp [Environment.assign, Environment.check, bound, sameTy, typed, Ne.symm fits, bind,
            Except.bind]
        simp only [assignProperty, read, refused] at branch
        obtain ⟨rfl, -, -⟩ := branch_pure_triple branch
        rw [if_neg fits]
        rfl

/-- In every run of an accepted program, what clients get to see of a property, by
reading it or in a signal that the object sends on its own, has the type of the
variable behind it; and that type decides whether the variable takes a write. -/
theorem reached_exposes (table : BuiltinTable) (known : InterfaceSet) (text : String)
    (program : Program) (d : Definition) (o : Object)
    (accepted : Program.parse table known text = .ok program) (member : d ∈ program.definitions)
    (reached : Reached d known table (fun _ => True) o) :
    (∀ bus interface name output after busAfter,
      Branch (o.dispatch bus
        ⟨Interface.propertiesName, "Get", [.string interface, .string name]⟩)
        (.ok output, after, busAfter) →
      ∃ i p value, o.implemented? interface = some i ∧ i.property? name = some p ∧
        p.access.readable = true ∧ output = [.reply (.tuple [.variant value])] ∧
        d.dataType? name = some value.ty) ∧
    (∀ bus interface output after busAfter,
      Branch (o.dispatch bus ⟨Interface.propertiesName, "GetAll", [.string interface]⟩)
        (.ok output, after, busAfter) →
      ∃ i entries, o.implemented? interface = some i ∧ d.Lists i entries ∧
        output = [.reply (.tuple [.dict .string .variant entries])]) ∧
    (∀ bus call output after busAfter,
      Branch (o.dispatch bus call) (.ok output, after, busAfter) →
      o.Reports bus (o.stimulus? call) output after busAfter) ∧
    (∀ bus output after busAfter, Branch (o.tick bus) (some (.ok output), after, busAfter) →
      o.Reports bus (some .arbitrary) output after busAfter) ∧
    ∀ bus interface i p value ty result after busAfter, o.implemented? interface = some i →
      i.property? p.name = some p → p.access.writable = true → value.ty = p.ty →
      o.machine.accepts (.property i.name p.name) = false → d.dataType? p.name = some ty →
      Branch (o.dispatch bus
        ⟨Interface.propertiesName, "Set", [.string interface, .string p.name, .variant value]⟩)
        (result, after, busAfter) →
      if ty = p.ty then ∃ output, result = .ok output
      else result = .error (.notAssignable (.typeMismatch p.name ty p.ty)) := by
  obtain ⟨raw, ctx, resolved⟩ :=
    Resolution.parse_resolved table known text program d accepted member
  have typed := Resolution.resolved_typed table known raw d ctx resolved
  have conforms := reached_conforms d known table o typed.distinct reached
  obtain ⟨-, rfl⟩ := reached_constant d known table _ o reached
  refine ⟨?_, ?_, ?_, ?_, ?_⟩
  · intro bus interface name output after busAfter branch
    exact dispatch_get interface name output conforms branch
  · intro bus interface output after busAfter branch
    exact dispatch_getAll interface output conforms branch
  · intro bus call output after busAfter branch
    exact answers_reports conforms call _ (dispatch_answers o bus call _ after busAfter branch)
      output rfl
  · intro bus output after busAfter branch
    exact tick_reports conforms output branch
  · intro bus interface i p value ty result after busAfter implemented found writable typed passive
      declared branch
    exact dispatch_set interface i p value ty conforms implemented found writable typed passive
      declared result branch

/-! A panel whose variable has another type than its property, and which tells
things about the property that are true of neither. -/

def panelText : String :=
  "object at /panel implements org.freedesktop.DBus.Properties " ++ braced
    ("data " ++ braced "Level : s = \"low\";" ++ "states " ++ braced "Shown;" ++
      "transition inside Shown on arbitrary " ++ braced
        ("emit PropertiesChanged(\"org.freedesktop.DBus.Properties\", " ++
          braced "\"Level\": <true>" ++ ", []);"))

def panelKnown : InterfaceSet :=
  ⟨[⟨"org.freedesktop.DBus.Properties", [],
    [⟨"PropertiesChanged",
      [⟨none, .string⟩, ⟨none, .dict .string .variant⟩, ⟨none, .array .string⟩]⟩],
    [⟨"Level", .int .uint32, .readWrite⟩]⟩]⟩

def panel : Definition where
  path := "/panel"
  names := []
  interfaces := ["org.freedesktop.DBus.Properties"]
  data := [⟨"Level", .string, .literal (.string "low"), ⟨1, 70⟩⟩]
  states := ["Shown"]
  transitions := [⟨0, 0, .arbitrary, [], [],
    [.emit "org.freedesktop.DBus.Properties" "PropertiesChanged" (.tuple
      [.literal (.string "org.freedesktop.DBus.Properties"),
        .dict .string .variant [(.literal (.string "Level"), .variant (.literal (.bool true)))],
        .array .string []])], ⟨1, 107⟩⟩]
  position := ⟨1, 1⟩

set_option maxRecDepth 100000 in
theorem panel_parsed :
    Program.parse Builtin.standard panelKnown panelText = .ok ⟨[panel], []⟩ := by
  rw [Program.parse_ofRead _ _ _ ?cs ?raw ?after ?chars ?reads]
  case chars =>
    unfold panelText braced
    simp only [String.toList_append]
    repeat rewrite [String.toList_ofList]
    rfl
  case reads =>
    cbv
    rfl
  rfl

def panelShown : Object where
  machine := ⟨panel, 0⟩
  env := [⟨"Level", .string, .string "low", .string "low"⟩]
  known := panelKnown
  builtins := Builtin.standard
  activity := 0
  registered := false
  held := []

theorem panelShown_reached (good : Value → Prop) :
    Reached panel panelKnown Builtin.standard good panelShown := .created (.done _)

def panelGet : Call :=
  ⟨Interface.propertiesName, "Get", [.string Interface.propertiesName, .string "Level"]⟩

def panelFive : Value := .int .uint32 ⟨5, by decide, by decide⟩

def panelSet : Call :=
  ⟨Interface.propertiesName, "Set",
    [.string Interface.propertiesName, .string "Level", .variant panelFive]⟩

/-- The panel reads a text where its interface has a number, does not take a number
for it, and sends a truth value. -/
theorem panel_mistyped :
    Program.parse Builtin.standard panelKnown panelText = .ok ⟨[panel], []⟩ ∧
    Reached panel panelKnown Builtin.standard (fun _ => True) panelShown ∧
    (∃ i p, panelShown.implemented? Interface.propertiesName = some i ∧
      i.property? "Level" = some p ∧ p.access = .readWrite ∧ p.ty = .int .uint32 ∧
      panelFive.ty = p.ty ∧ panelShown.machine.accepts (.property i.name p.name) = false) ∧
    Branch (panelShown.dispatch Bus.empty panelGet)
      (.ok [.reply (.tuple [.variant (.string "low")])], panelShown, Bus.empty) ∧
    Branch (panelShown.dispatch Bus.empty panelSet)
      (.error (.notAssignable (.typeMismatch "Level" .string (.int .uint32))), panelShown,
        Bus.empty) ∧
    ∃ after, Branch (panelShown.tick Bus.empty)
      (some (.ok [changeSignal Interface.propertiesName [propertyEntry "Level" (.bool true)]]),
        after, Bus.empty) :=
  ⟨panel_parsed, panelShown_reached _, ⟨_, _, rfl, rfl, rfl, rfl, rfl, rfl⟩, .done _, .done _,
    _, Draws.run_branch Draws.listedAnswers (panelShown.tick Bus.empty) []⟩

theorem panel_exposes :
    (∃ value, Branch (panelShown.dispatch Bus.empty panelGet)
        (.ok [.reply (.tuple [.variant value])], panelShown, Bus.empty) ∧
      panel.dataType? "Level" = some value.ty) ∧
    (∃ output after, Branch (panelShown.tick Bus.empty) (some (.ok output), after, Bus.empty) ∧
      output = [changeSignal Interface.propertiesName [propertyEntry "Level" (.bool true)]] ∧
      panelShown.Reports Bus.empty (some .arbitrary) output after Bus.empty) ∧
    ∀ result after busAfter,
      Branch (panelShown.dispatch Bus.empty panelSet) (result, after, busAfter) →
      result = .error (.notAssignable (.typeMismatch "Level" .string (.int .uint32))) := by
  obtain ⟨gets, -, -, ticks, sets⟩ := reached_exposes Builtin.standard panelKnown panelText
    ⟨[panel], []⟩ panel panelShown panel_parsed (List.mem_singleton_self panel)
    (panelShown_reached _)
  refine ⟨?_, ?_, ?_⟩
  · have read : Branch (panelShown.dispatch Bus.empty panelGet)
        (.ok [.reply (.tuple [.variant (.string "low")])], panelShown, Bus.empty) := .done _
    obtain ⟨_, _, value, -, -, -, replied, typed⟩ := gets _ _ _ _ _ _ read
    cases replied
    exact ⟨_, read, typed⟩
  · -- The signal is that of the statement: the object itself has nothing to add.
    have ticked := Draws.run_branch Draws.listedAnswers (panelShown.tick Bus.empty) []
    exact ⟨_, _, ticked, rfl, ticks _ _ _ _ ticked⟩
  · intro result after busAfter branch
    simpa using sets Bus.empty Interface.propertiesName _ ⟨"Level", .int .uint32, .readWrite⟩
      panelFive .string result after busAfter rfl rfl rfl rfl rfl rfl branch

end Object

end SimBus
