import SimBus.Proofs.HostedObjects
/-!
Objects of one simulation do not get into each other's way. What concerns one path in a
run of calls, its answers, its object and its signals, is what comes of the calls to this
path alone. So calls to different paths can be made in any order.
-/

namespace SimBus

open Draws (Branch branch_bind_iff)

theorem Object.emitted_path (o : Object) (result : Except BusError Output) :
    ∀ e ∈ o.emitted result, e.path = o.path := by
  intro e sent
  cases result with
  | error => cases sent
  | ok output =>
      simp only [Object.emitted, Object.sent] at sent
      split at sent
      · obtain ⟨s, -, rfl⟩ := List.mem_map.mp sent
        rfl
      · cases sent

theorem Object.dispatch_exact (o : Object) (fixed : o.Fixed) (call : Call) :
    ∃ result after,
      (∀ bus, o.dispatch bus call = pure (result, after, bus.queue (o.emitted result))) ∧
      after.path = o.path ∧ after.Fixed := by
  obtain ⟨result, after, sent, same⟩ := framed_drawless (o.dispatch_framed call)
    (o.dispatch_drawless fixed Bus.empty call)
  have branch (bus : Bus) : Branch (o.dispatch bus call) (result, after, bus.queue sent) := by
    rw [same bus]
    exact .done _
  have program := dispatch_sameProgram o Bus.empty call result after _ (branch Bus.empty)
  refine ⟨result, after, fun bus => ?_, congrArg Definition.path program.definition,
    program.fixed fixed⟩
  rw [same bus, o.dispatch_emits bus call result after _ (branch bus)]

namespace Simulation

/-- The part of a simulation that concerns a path: the objects there, and what they sent. -/
def only (path : String) (s : Simulation) : Simulation :=
  { s with
    objects := s.objects.filter (·.path == path)
    bus := { s.bus with signals := s.bus.signals.filter (·.path == path) } }

def Fixed (s : Simulation) : Prop := ∀ o ∈ s.objects, o.Fixed

def callAll : List (String × Call) → Simulation → Draws (List Ticked × Simulation)
  | [], s => pure ([], s)
  | (path, call) :: rest, s => do
      let (result, s) ← s.call path call
      let (log, s) ← callAll rest s
      pure ((path, result) :: log, s)

/-! The object that takes the place of another one at its path. -/

theorem replace_paths (object : Object) (objects : List Object) :
    (replace object objects).map Object.path = objects.map Object.path := by
  induction objects with
  | nil => rfl
  | cons other rest ih =>
      unfold replace
      split
      · next same => simp [same]
      · simp [ih]

theorem replace_here (object : Object) (objects : List Object) :
    (replace object objects).filter (·.path == object.path) =
      replace object (objects.filter (·.path == object.path)) := by
  induction objects with
  | nil => rfl
  | cons other rest ih =>
      by_cases same : other.path = object.path
      · simp [replace, same]
      · simp [replace, same, ih]

theorem replace_elsewhere (object : Object) (path : String) (elsewhere : object.path ≠ path)
    (objects : List Object) :
    (replace object objects).filter (·.path == path) = objects.filter (·.path == path) := by
  induction objects with
  | nil => rfl
  | cons other rest ih =>
      by_cases same : other.path = object.path
      · simp [replace, same, elsewhere]
      · simp [replace, same, List.filter_cons, ih]

theorem object?_only (s : Simulation) (path : String) :
    (s.only path).object? path = s.object? path := by
  simp only [object?, only, List.find?_filter, and_self, Bool.decide_eq_true]

/-- A call changes nothing but what concerns its path, and there it does what it would do
if there were nothing else. -/
theorem call_only (s : Simulation) (fixed : s.Fixed) (path : String) (call : Call) :
    ∃ result after, s.call path call = pure (result, after) ∧
      (s.only path).call path call = pure (result, after.only path) ∧
      (∀ other, other ≠ path → after.only other = s.only other) ∧
      after.objects.map Object.path = s.objects.map Object.path ∧ after.Fixed := by
  cases found : s.object? path with
  | none =>
      refine ⟨.error (.unknownObject path), s, ?_, ?_, fun _ _ => rfl, rfl, fixed⟩
      · rw [Simulation.call, found]
      · rw [Simulation.call, object?_only, found]
  | some o =>
      obtain ⟨member, rfl⟩ := object?_some s path o found
      obtain ⟨result, o', same, samePath, stillFixed⟩ := o.dispatch_exact (fixed o member) call
      have own : ∀ e ∈ o.emitted result, e.path = o'.path := by
        rw [samePath]
        exact o.emitted_path result
      refine ⟨result,
        { s with objects := replace o' s.objects, bus := s.bus.queue (o.emitted result) },
        ?_, ?_, ?_, replace_paths o' s.objects, ?_⟩
      · rw [Simulation.call, found]
        simp only [same, pure_bind]
      · have kept : (o.emitted result).filter (·.path == o'.path) = o.emitted result :=
          List.filter_eq_self.mpr fun e sent => by simp [own e sent]
        rw [Simulation.call, object?_only, found]
        simp only [same, pure_bind]
        rw [← samePath]
        simp only [only, Bus.queue, List.filter_append, kept, replace_here]
      · intro other differs
        have dropped : (o.emitted result).filter (·.path == other) = [] :=
          List.filter_eq_nil_iff.mpr fun e sent => by simp [own e sent, samePath, differs.symm]
        have elsewhere := replace_elsewhere o' other (samePath ▸ differs.symm) s.objects
        simp only [only, Bus.queue, List.filter_append, dropped, List.append_nil, elsewhere]
      · intro x hosted
        rcases mem_replace o' x s.objects hosted with rfl | before
        · exact stillFixed
        · exact fixed x before

theorem callAll_only (script : List (String × Call)) (s : Simulation) (fixed : s.Fixed) :
    ∃ log after, callAll script s = pure (log, after) ∧
      (∀ path, callAll (script.filter (·.1 == path)) (s.only path) =
        pure (log.filter (·.1 == path), after.only path)) ∧
      log.map Prod.fst = script.map Prod.fst ∧
      after.objects.map Object.path = s.objects.map Object.path := by
  induction script generalizing s with
  | nil => exact ⟨[], s, rfl, fun _ => rfl, rfl, rfl⟩
  | cons step rest ih =>
      obtain ⟨here, call⟩ := step
      obtain ⟨result, middle, called, alone, elsewhere, paths, stillFixed⟩ :=
        call_only s fixed here call
      obtain ⟨log, after, calls, parts, aligned, pathsRest⟩ := ih middle stillFixed
      refine ⟨(here, result) :: log, after, ?_, ?_, by simp [aligned], pathsRest.trans paths⟩
      · simp only [callAll, called, calls, pure_bind]
      · intro path
        -- A call to another path drops out, and leaves what concerns this one alone.
        by_cases same : here = path
        · subst same
          simp only [List.filter_cons, beq_self_eq_true, ↓reduceIte, callAll, alone, parts,
            pure_bind]
        · simpa [List.filter_cons, same, ← elsewhere path (Ne.symm same)] using parts path

theorem eq_of_filters {α : Type} (key : α → String) (first second : List α)
    (keys : first.map key = second.map key)
    (parts : ∀ k, first.filter (key · == k) = second.filter (key · == k)) : first = second := by
  induction first generalizing second with
  | nil => exact (List.map_eq_nil_iff.mp keys.symm).symm
  | cons a first ih =>
      cases second with
      | nil => cases keys
      | cons b second =>
          obtain ⟨head, tail⟩ := List.cons_eq_cons.mp keys
          -- Both first entries come first among those with their key.
          have here := parts (key a)
          simp only [List.filter_cons, ← head, beq_self_eq_true, ↓reduceIte] at here
          obtain ⟨rfl, -⟩ := List.cons_eq_cons.mp here
          refine congrArg (a :: ·) (ih second tail fun k => ?_)
          have both := parts k
          simp only [List.filter_cons] at both
          split at both
          · exact (List.cons_eq_cons.mp both).2
          · exact both

theorem callAll_emits (script : List (String × Call)) (s after : Simulation) (hosting : s.Hosting)
    (log : List Ticked) (branch : Branch (callAll script s) (log, after)) :
    after.bus = s.bus.queue (emissions log) := by
  induction script generalizing s log with
  | nil =>
      obtain ⟨rfl, rfl⟩ := Draws.branch_pure_pair branch
      exact after.bus.queue_nil.symm
  | cons step rest ih =>
      obtain ⟨path, call⟩ := step
      obtain ⟨⟨result, middle⟩, called, others⟩ := (branch_bind_iff _ _ _).mp branch
      obtain ⟨⟨later, final⟩, calls, answered⟩ := (branch_bind_iff _ _ _).mp others
      obtain ⟨rfl, rfl⟩ := Draws.branch_pure_pair answered
      have first := call_emits s middle hosting path call result called
      have stays := call_hosting s middle hosting path call result called
      rw [ih middle stays later calls, first, Bus.queue_queue]
      simp

theorem answered_filter (entry : Ticked) (path : String) :
    (Emission.answered entry.1 entry.2).filter (·.path == path) =
      if entry.1 == path then Emission.answered entry.1 entry.2 else [] := by
  obtain ⟨here, result⟩ := entry
  cases result with
  | error e => simp [Emission.answered]
  | ok output =>
      by_cases same : here = path <;>
        simp [Emission.answered, List.filter_map, Function.comp_def, same]

theorem emissions_filter (log : List Ticked) (path : String) :
    (emissions log).filter (·.path == path) = emissions (log.filter (·.1 == path)) := by
  induction log with
  | nil => rfl
  | cons entry rest ih =>
      rw [emissions_cons, List.filter_append, ih, answered_filter, List.filter_cons]
      split <;> simp

/-- Runs of calls with the same answers, the same objects and the same tables, in which
also the signals of each path are the same and come in the same order. -/
structure Agree (s : Simulation) (first second : List Ticked × Simulation) : Prop where
  answers : ∀ path, first.1.filter (·.1 == path) = second.1.filter (·.1 == path)
  objects : first.2.objects = second.2.objects
  firstBus : first.2.bus = s.bus.queue (emissions first.1)
  secondBus : second.2.bus = s.bus.queue (emissions second.1)
  signals : ∀ path, (emissions first.1).filter (·.path == path) =
    (emissions second.1).filter (·.path == path)

theorem calls_interleaved (s : Simulation) (fixed : s.Fixed) (hosting : s.Hosting)
    (first second : List (String × Call))
    (same : ∀ path, first.filter (·.1 == path) = second.filter (·.1 == path)) :
    ∃ one other, callAll first s = pure one ∧ callAll second s = pure other ∧ Agree s one other ∧
      one.1.map Prod.fst = first.map Prod.fst ∧ other.1.map Prod.fst = second.map Prod.fst := by
  obtain ⟨log, after, calls, parts, aligned, paths⟩ := callAll_only first s fixed
  obtain ⟨log', after', calls', parts', aligned', paths'⟩ := callAll_only second s fixed
  have agree (path : String) :
      log.filter (·.1 == path) = log'.filter (·.1 == path) ∧
        after.only path = after'.only path := by
    have both := parts path
    rw [same path, parts' path] at both
    exact Prod.mk.inj (Draws.done.inj both.symm)
  have objects : after.objects = after'.objects := by
    refine eq_of_filters Object.path _ _ (paths.trans paths'.symm) fun path => ?_
    exact congrArg Simulation.objects (agree path).2
  refine ⟨(log, after), (log', after'), calls, calls', ?_, aligned, aligned'⟩
  exact
    { answers := fun path => (agree path).1
      objects := objects
      firstBus := callAll_emits first s after hosting log (calls ▸ .done _)
      secondBus := callAll_emits second s after' hosting log' (calls' ▸ .done _)
      signals := fun path => by rw [emissions_filter, emissions_filter, (agree path).1] }

/-- Objects of one simulation are independent of each other, if they leave nothing to chance.
Two calls to different paths can change places, and so can all calls that do not go to
the same path: every call is answered as before, and the objects and the tables of the bus are
the same afterwards. The signals of one path keep their order. -/
theorem objects_independent (s : Simulation) (reached : Reached s)
    (standard : s.builtins = Builtin.standard) (fixed : ∀ o ∈ s.objects, o.definition.Fixed) :
    (∀ p q c d, p ≠ q → ∃ a b after after',
      callAll [(p, c), (q, d)] s = pure ([(p, a), (q, b)], after) ∧
      callAll [(q, d), (p, c)] s = pure ([(q, b), (p, a)], after') ∧
      after.objects = after'.objects ∧
      after.bus = s.bus.queue (Emission.answered p a ++ Emission.answered q b) ∧
      after'.bus = s.bus.queue (Emission.answered q b ++ Emission.answered p a)) ∧
    ∀ first second, (∀ path, first.filter (·.1 == path) = second.filter (·.1 == path)) →
      ∃ one other, callAll first s = pure one ∧ callAll second s = pure other ∧ Agree s one other ∧
        one.1.map Prod.fst = first.map Prod.fst ∧ other.1.map Prod.fst = second.map Prod.fst := by
  have drawless : s.Fixed := fun o member =>
    ⟨fixed o member, by
      rw [((reached_hosts s reached).objects o member).sameBuiltins, standard]
      exact Builtin.standard_drawless⟩
  have interleaved := calls_interleaved s drawless (reached_hosting s reached)
  refine ⟨fun p q c d differ => ?_, interleaved⟩
  have same (path : String) : [(p, c), (q, d)].filter (·.1 == path) =
      [(q, d), (p, c)].filter (·.1 == path) := by
    by_cases here : p = path
    · simp [here, show q ≠ path from here ▸ differ.symm]
    · simp [here, List.filter_cons]
  obtain ⟨⟨log, after⟩, ⟨log', after'⟩, calls, calls', agree, aligned, aligned'⟩ :=
    interleaved [(p, c), (q, d)] [(q, d), (p, c)] same
  obtain ⟨x, y, rfl⟩ := List.length_eq_two.mp (by simpa using congrArg List.length aligned)
  obtain ⟨y', x', rfl⟩ := List.length_eq_two.mp (by simpa using congrArg List.length aligned')
  obtain ⟨rfl, rfl⟩ : x.1 = p ∧ y.1 = q := by simpa using aligned
  obtain ⟨atQ, atP⟩ : y'.1 = y.1 ∧ x'.1 = x.1 := by simpa using aligned'
  -- Each run has one answer for each of the two paths.
  obtain rfl : x = x' := by simpa [differ, differ.symm, atQ, atP] using agree.answers x.1
  obtain rfl : y = y' := by simpa [differ, differ.symm, atQ, atP] using agree.answers y.1
  refine ⟨x.2, y.2, after, after', calls, calls', agree.objects, ?_, ?_⟩
  · simpa using agree.firstBus
  · simpa using agree.secondBus

/-! Two bells. -/

def bellText (path : String) : String :=
  "object at " ++ path ++ " implements test.Bell " ++ braced
    ("states " ++ braced "still;" ++
      "transition inside still on method Ring " ++ braced "emit Rung(); reply();")

def bellsText : String := bellText "/left" ++ bellText "/right"

def bellKnown : InterfaceSet := ⟨[⟨"test.Bell", [⟨"Ring", [], []⟩], [⟨"Rung", []⟩], []⟩]⟩

def bell (path : String) (position ringing : Position) : Definition where
  path := path
  names := []
  interfaces := ["test.Bell"]
  data := []
  states := ["still"]
  transitions := [⟨0, 0, .method "test.Bell" "Ring", [], [],
    [.emit "test.Bell" "Rung" (.tuple []), .reply (.tuple [])], ringing⟩]
  position := position

def leftBell : Definition := bell "/left" ⟨1, 1⟩ ⟨1, 57⟩

def rightBell : Definition := bell "/right" ⟨1, 123⟩ ⟨1, 180⟩

set_option maxRecDepth 100000 in
theorem bells_parsed :
    Program.parse Builtin.standard bellKnown bellsText = .ok ⟨[leftBell, rightBell], []⟩ := by
  rw [Program.parse_ofRead _ _ _ ?cs ?raw ?after ?chars ?reads]
  case chars =>
    unfold bellsText bellText braced
    simp only [String.toList_append]
    repeat rewrite [String.toList_ofList]
    rfl
  case reads =>
    cbv
    rfl
  rfl

def hostedBell (d : Definition) : Object where
  machine := Machine.new d
  env := []
  known := bellKnown
  builtins := Builtin.standard
  activity := 0
  registered := true
  held := []

def bells : Simulation where
  known := bellKnown
  builtins := Builtin.standard
  seed := 0
  bus := { Bus.empty with
    objects := [("/right", ["test.Bell", Interface.propertiesName]),
      ("/left", ["test.Bell", Interface.propertiesName])] }
  objects := [hostedBell leftBell, hostedBell rightBell]

theorem bells_reached : Reached bells := by
  have loads : (empty bellKnown Builtin.standard 0).load bellsText =
      ExceptT.lift (addObjects [leftBell, rightBell] (empty bellKnown Builtin.standard 0)) := by
    have parsed : Program.parse (empty bellKnown Builtin.standard 0).builtins
        (empty bellKnown Builtin.standard 0).known bellsText = _ := bells_parsed
    rw [load, parsed]
  have branch : Branch ((empty bellKnown Builtin.standard 0).load bellsText).run (.ok bells) := by
    rw [loads]
    exact .done _
  exact .loaded (.empty bellKnown Builtin.standard 0) branch

def ring : Call := ⟨"test.Bell", "Ring", []⟩

def rings : Except BusError Output :=
  .ok [.signal "test.Bell" "Rung" (.tuple []), .reply (.tuple [])]

def rung (path : String) : Emission := ⟨path, "test.Bell", "Rung", .tuple []⟩

theorem bells_independent :
    (∀ o ∈ bells.objects, o.definition.Fixed) ∧
    ∃ a b after after',
      callAll [("/left", ring), ("/right", ring)] bells =
        pure ([("/left", a), ("/right", b)], after) ∧
      callAll [("/right", ring), ("/left", ring)] bells =
        pure ([("/right", b), ("/left", a)], after') ∧
      after.objects = after'.objects ∧ after.objects.map Object.activity = [1, 1] ∧
      after.bus.signals = [rung "/left", rung "/right"] ∧
      after'.bus.signals = [rung "/right", rung "/left"] := by
  have fixed : ∀ o ∈ bells.objects, o.definition.Fixed := by
    simp only [bells, List.forall_mem_cons]
    exact ⟨⟨by decide, by decide, by decide, by decide⟩,
      ⟨by decide, by decide, by decide, by decide⟩, by simp⟩
  obtain ⟨a, b, after, after', calls, calls', objects, sent, sent'⟩ :=
    (objects_independent bells bells_reached rfl fixed).1 "/left" "/right" ring ring (by decide)
  have both : callAll [("/left", ring), ("/right", ring)] bells =
      pure ([("/left", rings), ("/right", rings)], _) := rfl
  obtain ⟨answers, rfl⟩ := Prod.mk.inj (Draws.done.inj (calls.symm.trans both))
  obtain ⟨rfl, rfl⟩ : a = rings ∧ b = rings := by simpa using answers
  refine ⟨fixed, _, _, _, _, calls, calls', objects, rfl, rfl, ?_⟩
  rw [sent']
  rfl

end Simulation

end SimBus
