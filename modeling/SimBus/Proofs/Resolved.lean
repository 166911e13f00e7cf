import Mathlib
import SimBus.Program
/-!
What is known about the definitions of an accepted program. Resolution takes an
object apart and checks one part after the other, so a definition comes with
the written object and the answers to all of these checks.
-/

namespace SimBus

theorem except_bind_ok_iff {ε α β : Type} (m : Except ε α) (f : α → Except ε β) (b : β) :
    (m >>= f) = .ok b ↔ ∃ a, m = .ok a ∧ f a = .ok b := by
  cases m with
  | error e => simp [bind, Except.bind]
  | ok a => simp [bind, Except.bind]

theorem except_map_ok_iff {ε α β : Type} (m : Except ε α) (f : α → β) (b : β) :
    m.map f = .ok b ↔ ∃ a, m = .ok a ∧ f a = b := by
  cases m with
  | error e => simp [Except.map]
  | ok a => simp [Except.map]

theorem except_map_error_iff {ε α β : Type} (m : Except ε α) (f : α → β) (e : ε) :
    m.map f = .error e ↔ m = .error e := by
  cases m with
  | error fault => simp [Except.map]
  | ok a => simp [Except.map]

theorem forall₂_mem_right {α β : Type} {related : α → β → Prop} {left : List α} {right : List β}
    (all : List.Forall₂ related left right) : ∀ b ∈ right, ∃ a ∈ left, related a b := by
  induction all with
  | nil => simp
  | @cons a b left right here _ ih =>
      refine List.forall_mem_cons.mpr ⟨⟨a, List.mem_cons_self, here⟩, ?_⟩
      intro other member
      obtain ⟨a', inLeft, there⟩ := ih other member
      exact ⟨a', List.mem_cons_of_mem _ inLeft, there⟩

theorem InterfaceSet.find?_name (known : InterfaceSet) (name : String) (i : Interface)
    (found : known.find? name = some i) : i.name = name := by
  simpa using List.find?_some found

namespace Interface

variable (i : Interface) (name : String)

theorem method?_name (m : Method) (found : i.method? name = some m) : m.name = name := by
  simpa using List.find?_some found

theorem signal?_name (s : Signal) (found : i.signal? name = some s) : s.name = name := by
  simpa using List.find?_some found

theorem property?_name (p : Property) (found : i.property? name = some p) : p.name = name := by
  simpa using List.find?_some found

end Interface

namespace Resolution

/-- A transition and the answers that its parts were given. -/
structure ResolvedTransition (ctx : Context) (raw : Surface.Transition) (t : Transition)
    (info : TriggerInfo) : Prop where
  source : state ctx raw.source = .ok t.source
  target : state ctx raw.target = .ok t.target
  triggered : trigger ctx raw.triggerPosition raw.trigger = .ok info
  sameTrigger : t.trigger = info.trigger
  sameParameters : t.parameters = info.parameters
  guarded : preconditions ctx ⟨some ctx.data, info.parameters⟩ raw.preconditions =
    .ok t.preconditions
  bodied : body ctx ⟨some ctx.data, info.parameters⟩ info.reply raw.body = .ok t.body
  answered : isMethod info.trigger = true → raw.body.any Surface.Statement.answers = true

structure ResolvedObject (table : BuiltinTable) (known : InterfaceSet) (raw : Surface.Object)
    (d : Definition) (ctx : Context) : Prop where
  samePath : d.path = raw.path
  validPath : ObjectPath.valid raw.path = true
  sameTable : ctx.table = table
  implements : implemented known raw.interfaces [] = .ok ctx.interfaces
  sameInterfaces : d.interfaces = ctx.interfaces.map Interface.name
  inhabited : raw.states ≠ []
  stated : states raw.states [] = .ok ctx.states
  sameStates : d.states = ctx.states
  declared : dataVariables table raw.data [] = .ok d.data
  dataTypes : ctx.data = d.data.map fun declared => (declared.name, declared.ty)
  written : List.Forall₂ (fun raw t => ∃ info, ResolvedTransition ctx raw t info) raw.transitions
    d.transitions
  unrepeated : d.transitions.Pairwise fun earlier later => earlier.sameRule later = false

theorem ResolvedObject.transitions {table : BuiltinTable} {known : InterfaceSet}
    {rawObject : Surface.Object} {d : Definition} {ctx : Context}
    (resolved : ResolvedObject table known rawObject d ctx) :
    ∀ t ∈ d.transitions, ∃ raw info, ResolvedTransition ctx raw t info := by
  intro t member
  obtain ⟨raw, -, info, answers⟩ := forall₂_mem_right resolved.written t member
  exact ⟨raw, info, answers⟩

theorem transition_resolved (ctx : Context) (raw : Surface.Transition) (t : Transition)
    (neverFires : Bool) (accepted : transition ctx raw = .ok (t, neverFires)) :
    ∃ info, ResolvedTransition ctx raw t info ∧ info.neverFires = neverFires := by
  simp only [transition, except_bind_ok_iff] at accepted
  obtain ⟨source, sourced, target, targeted, info, triggered, conditions, conditioned, body,
    bodied, answered⟩ := accepted
  split at answered
  · cases answered
  · next complete =>
      obtain ⟨rfl, flag⟩ := Prod.mk.inj (Except.ok.inj answered)
      exact ⟨info, ⟨sourced, targeted, triggered, rfl, rfl, conditioned, bodied, by
        simpa using complete⟩, flag⟩

def idleWarnings (ctx : Context) (path : String) (raw : Surface.Transition) : List Warning :=
  match trigger ctx raw.triggerPosition raw.trigger with
  | .error _ => []
  | .ok info =>
      if info.neverFires then [⟨path, raw.triggerPosition, .neverFires (memberName info.trigger)⟩]
      else []

theorem ResolvedTransition.idleWarnings {ctx : Context} {raw : Surface.Transition} {t : Transition}
    {info : TriggerInfo} (answers : ResolvedTransition ctx raw t info) (path : String) :
    idleWarnings ctx path raw =
      if info.neverFires then [⟨path, raw.triggerPosition, .neverFires (memberName t.trigger)⟩]
      else [] := by
  simp only [Resolution.idleWarnings, answers.triggered, answers.sameTrigger]

theorem transitions_resolved (ctx : Context) (path : String) (raws : List Surface.Transition)
    (sofar final : List Transition) (warnings warningsAfter : List Warning)
    (unrepeated : sofar.Pairwise fun earlier later => earlier.sameRule later = false)
    (accepted : transitions ctx path raws sofar warnings = .ok (final, warningsAfter)) :
    (final.Pairwise fun earlier later => earlier.sameRule later = false) ∧
      warningsAfter = warnings ++ raws.flatMap (idleWarnings ctx path) ∧
      ∃ added, final = sofar ++ added ∧
        List.Forall₂ (fun raw t => ∃ info, ResolvedTransition ctx raw t info) raws added := by
  induction raws generalizing sofar warnings with
  | nil =>
      obtain ⟨rfl, rfl⟩ := Prod.mk.inj (Except.ok.inj accepted)
      exact ⟨unrepeated, by simp, [], by simp, .nil⟩
  | cons raw rest ih =>
      simp only [transitions, except_bind_ok_iff] at accepted
      obtain ⟨⟨t, neverFires⟩, resolved, continued⟩ := accepted
      split at continued
      · cases continued
      · next fresh =>
          have differs : ∀ earlier ∈ sofar, earlier.sameRule t = false := by
            intro earlier member
            simpa using List.find?_eq_none.mp fresh earlier member
          have extended : (sofar ++ [t]).Pairwise fun earlier later =>
              earlier.sameRule later = false := by
            refine List.pairwise_append.mpr ⟨unrepeated, List.pairwise_singleton _ t, ?_⟩
            intro earlier old later new
            exact List.mem_singleton.mp new ▸ differs earlier old
          obtain ⟨info, answers, rfl⟩ := transition_resolved ctx raw t neverFires resolved
          obtain ⟨apart, warned, added, rfl, become⟩ := ih (sofar ++ [t]) _ extended continued
          refine ⟨apart, ?_, t :: added, by simp, .cons ⟨info, answers⟩ become⟩
          rw [warned, List.flatMap_cons, answers.idleWarnings path]
          split <;> simp

def ResolvedReport (table : BuiltinTable) (known : InterfaceSet) (raw : Surface.Object)
    (d : Definition) (warnings : List Warning) : Prop :=
  ∃ ctx, ResolvedObject table known raw d ctx ∧
    warnings = raw.transitions.flatMap (idleWarnings ctx raw.path) ++ d.unusedData ctx.interfaces
      ++ d.unhandledMethods ctx.interfaces

theorem object_resolved (table : BuiltinTable) (known : InterfaceSet) (raw : Surface.Object)
    (d : Definition) (warnings : List Warning)
    (accepted : object table known raw = .ok (d, warnings)) :
    ResolvedReport table known raw d warnings := by
  unfold object at accepted
  split at accepted
  · cases accepted
  · next valid =>
      obtain ⟨interfaces, implemented, accepted⟩ := (except_bind_ok_iff _ _ _).mp accepted
      split at accepted
      · cases accepted
      · next inhabited =>
          simp only [except_bind_ok_iff] at accepted
          obtain ⟨states, stated, data, declared, ⟨transitions, others⟩, moves, answered⟩ :=
            accepted
          obtain ⟨rfl, rfl⟩ := Prod.mk.inj (Except.ok.inj answered)
          obtain ⟨unrepeated, rfl, _, rfl, become⟩ :=
            transitions_resolved _ raw.path raw.transitions [] transitions [] others .nil moves
          refine ⟨⟨table, interfaces, data.map fun d => (d.name, d.ty), states⟩, ?_, by simp⟩
          exact
            { samePath := rfl
              validPath := by simpa using valid
              sameTable := rfl
              implements := implemented
              sameInterfaces := rfl
              inhabited := fun empty => inhabited (by simp [empty])
              stated := stated
              sameStates := rfl
              declared := declared
              dataTypes := rfl
              written := become
              unrepeated := unrepeated }

/-- Written objects with their definitions, one by one, and their warnings, one
object's behind the other's. -/
inductive Reported (each : Surface.Object → Definition → List Warning → Prop) :
    List Surface.Object → List Definition → List Warning → Prop where
  | nil : Reported each [] [] []
  | cons {raw : Surface.Object} {d : Definition} {own others : List Warning}
      {raws : List Surface.Object} {definitions : List Definition} :
      each raw d own → Reported each raws definitions others →
      Reported each (raw :: raws) (d :: definitions) (own ++ others)

theorem Reported.imp {weak strong : Surface.Object → Definition → List Warning → Prop}
    (weaken : ∀ raw d own, strong raw d own → weak raw d own) {raws : List Surface.Object}
    {definitions : List Definition} {warnings : List Warning}
    (reported : Reported strong raws definitions warnings) :
    Reported weak raws definitions warnings := by
  induction reported with
  | nil => exact .nil
  | cons here _ ih => exact .cons (weaken _ _ _ here) ih

theorem Reported.forall₂ {each : Surface.Object → Definition → List Warning → Prop}
    {raws : List Surface.Object} {definitions : List Definition} {warnings : List Warning}
    (reported : Reported each raws definitions warnings) :
    List.Forall₂ (fun raw d => ∃ own, each raw d own) raws definitions := by
  induction reported with
  | nil => exact .nil
  | cons here _ ih => exact .cons ⟨_, here⟩ ih

theorem objects_resolved (table : BuiltinTable) (known : InterfaceSet)
    (raws : List Surface.Object) (program : Program)
    (accepted : objects table known raws = .ok program) :
    Reported (ResolvedReport table known) raws program.definitions program.warnings := by
  induction raws generalizing program with
  | nil =>
      obtain rfl := Except.ok.inj accepted
      exact .nil
  | cons raw rest ih =>
      simp only [objects, except_bind_ok_iff] at accepted
      obtain ⟨⟨first, warnings⟩, here, others, later, answered⟩ := accepted
      obtain rfl := Except.ok.inj answered
      exact .cons (object_resolved table known raw first warnings here) (ih others later)

theorem parse_reported (table : BuiltinTable) (known : InterfaceSet) (text : String)
    (program : Program) (accepted : Program.parse table known text = .ok program) :
    ∃ raws, Surface.parse text = .ok raws ∧
      Reported (ResolvedReport table known) raws program.definitions program.warnings := by
  unfold Program.parse at accepted
  split at accepted
  · cases accepted
  · next raws read => exact ⟨raws, read, objects_resolved table known raws program accepted⟩

theorem parse_objects (table : BuiltinTable) (known : InterfaceSet) (text : String)
    (program : Program) (accepted : Program.parse table known text = .ok program) :
    ∃ raws, Surface.parse text = .ok raws ∧
      List.Forall₂ (fun raw d => ∃ ctx, ResolvedObject table known raw d ctx) raws
        program.definitions := by
  obtain ⟨raws, read, reported⟩ := parse_reported table known text program accepted
  refine ⟨raws, read, reported.forall₂.imp ?_⟩
  rintro raw d ⟨_, ctx, resolved, -⟩
  exact ⟨ctx, resolved⟩

theorem parse_resolved (table : BuiltinTable) (known : InterfaceSet) (text : String)
    (program : Program) (d : Definition) (accepted : Program.parse table known text = .ok program)
    (member : d ∈ program.definitions) : ∃ raw ctx, ResolvedObject table known raw d ctx := by
  obtain ⟨raws, -, become⟩ := parse_objects table known text program accepted
  obtain ⟨raw, -, ctx, resolved⟩ := forall₂_mem_right become d member
  exact ⟨raw, ctx, resolved⟩

theorem states_length (names : List Surface.Name) (sofar final : List String)
    (accepted : states names sofar = .ok final) : final.length = sofar.length + names.length := by
  induction names generalizing sofar with
  | nil =>
      obtain rfl := Except.ok.inj accepted
      rfl
  | cons name rest ih =>
      unfold states at accepted
      split at accepted
      · cases accepted
      · have counted := ih _ accepted
        simp only [List.length_append, List.length_cons, List.length_nil] at counted ⊢
        omega

theorem state_lt (ctx : Context) (name : Surface.Name) (id : Nat)
    (accepted : state ctx name = .ok id) : id < ctx.states.length := by
  unfold state at accepted
  split at accepted
  · next found =>
      obtain rfl := Except.ok.inj accepted
      exact (List.findIdx?_eq_some_iff_getElem.mp found).1
  · cases accepted

end Resolution

namespace Definition

/-- There is an initial state, and transitions lead from states to states. -/
structure InRange (d : Definition) : Prop where
  initial : 0 < d.states.length
  source : ∀ t ∈ d.transitions, t.source < d.states.length
  target : ∀ t ∈ d.transitions, t.target < d.states.length

theorem resolved_inRange (table : BuiltinTable) (known : InterfaceSet) (raw : Surface.Object)
    (d : Definition) (ctx : Resolution.Context)
    (resolved : Resolution.ResolvedObject table known raw d ctx) : d.InRange := by
  constructor
  · have counted := Resolution.states_length raw.states [] ctx.states resolved.stated
    have some := List.length_pos_iff.mpr resolved.inhabited
    rw [resolved.sameStates]
    omega
  · intro t member
    obtain ⟨_, _, answers⟩ := resolved.transitions t member
    exact resolved.sameStates ▸ Resolution.state_lt ctx _ _ answers.source
  · intro t member
    obtain ⟨_, _, answers⟩ := resolved.transitions t member
    exact resolved.sameStates ▸ Resolution.state_lt ctx _ _ answers.target

end Definition

/-- The characters of a text are worked out once, before the program is read. -/
theorem Program.parse_ofRead (table : BuiltinTable) (known : InterfaceSet) (text : String)
    (cs : List Char) (raw : List Surface.Object) (after : Surface.Cursor)
    (chars : text.toList = cs)
    (reads : Surface.Reader.program.run ⟨cs, ⟨1, 1⟩⟩ = .ok (raw, after)) :
    parse table known text = Resolution.objects table known raw := by
  simp [parse, Surface.parse, Surface.Cursor.start, chars, reads, Except.map]

/-! A program to show things on. -/

def braced (text : String) : String := "\x7b " ++ text ++ " \x7d"

def lampText : String :=
  "object at /lamp implements test.Lamp " ++ braced
    ("data " ++ braced "glow : y = 0;" ++ "states " ++ braced "off; on;" ++
      "transition from off to on on method Light " ++ braced "glow = glow + arg0; reply();")

def lampKnown : InterfaceSet := ⟨[⟨"test.Lamp", [⟨"Light", [⟨none, .int .byte⟩], []⟩], [], []⟩]⟩

def lamp : Definition where
  path := "/lamp"
  names := []
  interfaces := ["test.Lamp"]
  data := [⟨"glow", .int .byte, .literal (.int .byte ⟨0, by decide, by decide⟩), ⟨1, 47⟩⟩]
  states := ["off", "on"]
  transitions :=
    [⟨0, 1, .method "test.Lamp" "Light", [("arg0", .int .byte)], [],
        [.assign "glow" (.binary .add (.var "glow" (.int .byte)) (.var "arg0" (.int .byte))),
          .reply (.tuple [])], ⟨1, 81⟩⟩]
  position := ⟨1, 1⟩

set_option maxRecDepth 100000 in
theorem lamp_parsed :
    Program.parse Builtin.standard lampKnown lampText = .ok ⟨[lamp], []⟩ := by
  rw [Program.parse_ofRead _ _ _ ?cs ?raw ?after ?chars ?reads]
  case chars =>
    unfold lampText braced
    simp only [String.toList_append]
    repeat rewrite [String.toList_ofList]
    rfl
  case reads =>
    cbv
    rfl
  rfl

end SimBus
