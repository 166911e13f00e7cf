import SimBus.Proofs.BusClaims
import SimBus.Proofs.ObjectRuns
import SimBus.Simulation
/-!
Runs of a simulation, as runs of the objects that share its bus. All of them are
registered, so no two have one path, and nothing is left on the bus when the
simulation shuts down.
-/

namespace SimBus

open Draws (Branch branch_bind_iff branch_run_bind_ok_iff branch_run_pure_iff)

namespace Simulation

theorem call_cases (s after : Simulation) (path : String) (call : Call)
    (result : Except BusError Output) (branch : Branch (s.call path call) (result, after)) :
    (s.object? path = none ∧ result = .error (.unknownObject path) ∧ after = s) ∨
      ∃ o o' bus, s.object? path = some o ∧ Branch (o.dispatch s.bus call) (result, o', bus) ∧
        after = { s with objects := replace o' s.objects, bus := bus } := by
  unfold Simulation.call at branch
  split at branch
  · next missing =>
      obtain ⟨rfl, rfl⟩ := Draws.branch_pure_pair branch
      exact .inl ⟨missing, rfl, rfl⟩
  · next o found =>
      obtain ⟨⟨answer, o', bus⟩, dispatched, continued⟩ := (branch_bind_iff _ _ _).mp branch
      obtain ⟨rfl, rfl⟩ := Draws.branch_pure_pair continued
      exact .inr ⟨o, o', bus, found, dispatched, rfl⟩

theorem tick_cases (s after : Simulation) (ticked : List Ticked)
    (branch : Branch s.tick (ticked, after)) :
    ∃ objects bus, Branch (tickAll s.objects s.bus) (ticked, objects, bus) ∧
      after = { s with objects := objects, bus := bus } := by
  obtain ⟨⟨every, objects, bus⟩, ticks, answered⟩ := (branch_bind_iff _ _ _).mp branch
  obtain ⟨rfl, rfl⟩ := Draws.branch_pure_pair answered
  exact ⟨objects, bus, ticks, rfl⟩

theorem object?_some (s : Simulation) (path : String) (o : Object)
    (found : s.object? path = some o) :
    o ∈ s.objects ∧ o.path = path :=
  ⟨List.mem_of_find?_eq_some found, by simpa using List.find?_some found⟩

theorem call_found (s after : Simulation) (path : String) (call : Call)
    (result : Except BusError Output) (o : Object) (found : s.object? path = some o)
    (branch : Branch (s.call path call) (result, after)) :
    ∃ o' bus, Branch (o.dispatch s.bus call) (result, o', bus) := by
  rcases call_cases s after path call result branch with
    ⟨missing, -, -⟩ | ⟨other, o', bus, here, dispatched, -⟩
  · cases missing.symm.trans found
  · obtain rfl := Option.some.inj (here.symm.trans found)
    exact ⟨o', bus, dispatched⟩

/-- An object is left out, because it cannot be created or is refused, or joins the others. -/
theorem addObject_cases (s after : Simulation) (d : Definition)
    (branch : Branch (s.addObject d) after) :
    after = s ∨ ∃ o, Branch (Object.create d s.known s.builtins).run (.ok o) ∧
      ((∃ e bus, o.register s.bus = (.error e, bus) ∧ after = { s with bus := bus }) ∨
        ∃ registered bus, o.register s.bus = (.ok registered, bus) ∧
          after = { s with bus := bus, objects := s.objects ++ [registered] }) := by
  obtain ⟨created, made, continued⟩ := (branch_bind_iff _ _ _).mp branch
  cases created with
  | error e => exact .inl ((Draws.branch_pure_iff _ _).mp continued)
  | ok o =>
      refine .inr ⟨o, made, ?_⟩
      rcases registers : o.register s.bus with ⟨e | registered, bus⟩
      · simp only [registers] at continued
        exact .inl ⟨e, bus, rfl, (Draws.branch_pure_iff _ _).mp continued⟩
      · simp only [registers] at continued
        exact .inr ⟨registered, bus, rfl, (Draws.branch_pure_iff _ _).mp continued⟩

theorem load_adds (s after : Simulation) (text : String)
    (branch : Branch (s.load text).run (.ok after)) :
    ∃ program, Program.parse s.builtins s.known text = .ok program ∧
      Branch (addObjects program.definitions s) after := by
  unfold load at branch
  split at branch
  · simp at branch
  · next program accepted =>
      obtain ⟨added, placed, same⟩ := (Draws.branch_run_lift_iff _ _).mp branch
      obtain rfl := Except.ok.inj same
      exact ⟨program, accepted, placed⟩

theorem tickAll_cons (o : Object) (rest ticking : List Object) (ticked : List Ticked)
    (bus busAfter : Bus) (branch : Branch (tickAll (o :: rest) bus) (ticked, ticking, busAfter)) :
    ∃ result after middle tickedRest tickingRest, Branch (o.tick bus) (result, after, middle) ∧
      Branch (tickAll rest middle) (tickedRest, tickingRest, busAfter) ∧
      ticked = result.elim tickedRest (fun answer => (after.path, answer) :: tickedRest) ∧
      ticking = after :: tickingRest := by
  obtain ⟨⟨result, after, middle⟩, ticks, others⟩ := (branch_bind_iff _ _ _).mp branch
  obtain ⟨⟨tickedRest, tickingRest, busRest⟩, ticksRest, answered⟩ :=
    (branch_bind_iff _ _ _).mp others
  cases result with
  | none =>
      obtain ⟨rfl, rfl, rfl⟩ := Draws.branch_pure_triple answered
      exact ⟨none, after, middle, _, tickingRest, ticks, ticksRest, rfl, rfl⟩
  | some result =>
      obtain ⟨rfl, rfl, rfl⟩ := Draws.branch_pure_triple answered
      exact ⟨some result, after, middle, tickedRest, tickingRest, ticks, ticksRest, rfl, rfl⟩

end Simulation

namespace World

variable {bus busAfter : Bus} {o after : Object} {rest : List Object}

/-- A world that was reached and in which all objects are registered. -/
structure Settled (w : World) : Prop where
  reached : Reached w
  registered : ∀ o ∈ w.objects, o.registered = true

theorem settled_acts {before : List Object} (settled : Settled ⟨before ++ o :: rest, bus⟩)
    (acts : o.Acts bus after busAfter) (same : o.SameClaims after) :
    Settled ⟨before ++ after :: rest, busAfter⟩ := by
  have registered := List.forall_mem_append.mp settled.registered
  obtain ⟨here, later⟩ := List.forall_mem_cons.mp registered.2
  refine ⟨.stepped settled.reached (.acted rfl acts), ?_⟩
  exact List.forall_mem_append.mpr
    ⟨registered.1, List.forall_mem_cons.mpr ⟨same.registered.trans here, later⟩⟩

theorem settled_tickAll (objects before ticking : List Object) (ticked : List Simulation.Ticked)
    (bus busAfter : Bus) (settled : Settled ⟨before ++ objects, bus⟩)
    (branch : Branch (Simulation.tickAll objects bus) (ticked, ticking, busAfter)) :
    Settled ⟨before ++ ticking, busAfter⟩ := by
  -- On the objects that are still to tick; those in `before` have ticked.
  induction objects generalizing before ticking ticked bus busAfter with
  | nil =>
      obtain ⟨rfl, rfl, rfl⟩ := Draws.branch_pure_triple branch
      exact settled
  | cons o rest ih =>
      obtain ⟨result, after, middle, tickedRest, tickingRest, here, later, -, rfl⟩ :=
        Simulation.tickAll_cons o rest ticking ticked bus busAfter branch
      have same := (Object.tick_sameClaims o bus result after middle here).1
      have first : Settled ⟨before ++ [after] ++ rest, middle⟩ := by
        simpa using settled_acts settled (.ticked here) same
      simpa using ih (before ++ [after]) tickingRest tickedRest middle busAfter first later

theorem settled_reset (objects before : List Object) (settled : Settled ⟨before ++ objects, bus⟩) :
    Settled ⟨before ++ objects.map Object.reset, bus⟩ := by
  induction objects generalizing before with
  | nil => exact settled
  | cons o rest ih =>
      have first : Settled ⟨before ++ [o.reset] ++ rest, bus⟩ := by
        simpa using settled_acts settled .reset ⟨rfl, rfl, rfl⟩
      simpa using ih (before ++ [o.reset]) first

theorem reached_shutdown (objects : List Object) (bus : Bus) (reached : Reached ⟨objects, bus⟩) :
    Reached ⟨[], objects.foldl (fun bus o => (o.unregister bus).2) bus⟩ := by
  induction objects generalizing bus with
  | nil => exact reached
  | cons o rest ih =>
      have fewer : Step ⟨o :: rest, bus⟩ ⟨[] ++ rest, (o.unregister bus).2⟩ := .dropped rfl
      exact ih _ (.stepped reached fewer)

end World

theorem Object.create_idle (d : Definition) (known : InterfaceSet) (table : BuiltinTable)
    (o : Object) (branch : Branch (Object.create d known table).run (.ok o)) :
    o.registered = false ∧ o.held = [] := by
  obtain ⟨env, -, made⟩ := (branch_run_bind_ok_iff _ _ _).mp branch
  rw [branch_run_pure_iff] at made
  obtain rfl := Except.ok.inj made
  exact ⟨rfl, rfl⟩

namespace Simulation

open World (Settled)

inductive Reached : Simulation → Prop where
  | empty (known : InterfaceSet) (builtins : BuiltinTable) (seed : UInt64) :
      Reached (empty known builtins seed)
  | loaded {s after : Simulation} {text : String} : Reached s →
      Branch (s.load text).run (.ok after) → Reached after
  | called {s after : Simulation} {path : String} {call : Call} {result : Except BusError Output} :
      Reached s → Branch (s.call path call) (result, after) → Reached after
  | ticked {s after : Simulation} {ticked : List Ticked} : Reached s →
      Branch s.tick (ticked, after) → Reached after
  | reset {s : Simulation} : Reached s → Reached s.reset
  | signalsTaken {s : Simulation} : Reached s → Reached s.takeSignals.2
  | nameRefused {s : Simulation} (name : String) : Reached s →
      Reached { s with bus := s.bus.refuseName name }
  | shutdown {s : Simulation} : Reached s → Reached s.shutdown

theorem addObject_settled (s after : Simulation) (d : Definition)
    (settled : Settled ⟨s.objects, s.bus⟩) (branch : Branch (s.addObject d) after) :
    Settled ⟨after.objects, after.bus⟩ := by
  rcases addObject_cases s after d branch with rfl | ⟨o, made, joins⟩
  · exact settled
  · obtain ⟨idle, none⟩ := Object.create_idle d s.known s.builtins o made
    have present : World.Reached ⟨s.objects ++ [o], s.bus⟩ :=
      .stepped settled.reached (.created idle none)
    rcases joins with ⟨e, bus, registers, rfl⟩ | ⟨registered, bus, registers, rfl⟩
    · -- The refused object was there to make its claim, and is dropped at once.
      have unclaimed : World.Reached ⟨s.objects ++ [o], bus⟩ :=
        .stepped present (.acted rfl (.refused registers))
      have gone : World.Step ⟨s.objects ++ [o], bus⟩ ⟨s.objects ++ [], (o.unregister bus).2⟩ :=
        .dropped rfl
      simp only [Object.unregister, idle] at gone
      exact ⟨by simpa using World.Reached.stepped unclaimed gone, settled.registered⟩
    · refine ⟨.stepped present (.acted rfl (.registered registers)), ?_⟩
      obtain ⟨-, rfl, -⟩ := Object.register_ok o registered s.bus bus registers
      exact List.forall_mem_append.mpr ⟨settled.registered, by simp⟩

theorem addObjects_settled (definitions : List Definition) (s after : Simulation)
    (settled : Settled ⟨s.objects, s.bus⟩) (branch : Branch (addObjects definitions s) after) :
    Settled ⟨after.objects, after.bus⟩ := by
  induction definitions generalizing s with
  | nil =>
      obtain rfl := (Draws.branch_pure_iff _ _).mp branch
      exact settled
  | cons d rest ih =>
      obtain ⟨middle, here, later⟩ := (branch_bind_iff _ _ _).mp branch
      exact ih middle (addObject_settled s middle d settled here) later

theorem load_settled (s after : Simulation) (text : String) (settled : Settled ⟨s.objects, s.bus⟩)
    (branch : Branch (s.load text).run (.ok after)) : Settled ⟨after.objects, after.bus⟩ := by
  obtain ⟨program, -, placed⟩ := load_adds s after text branch
  exact addObjects_settled program.definitions s after settled placed

theorem replace_first (before rest : List Object) (o after : Object) (same : o.path = after.path)
    (first : ∀ x ∈ before, x.path ≠ after.path) :
    replace after (before ++ o :: rest) = before ++ after :: rest := by
  induction before with
  | nil => simp [replace, same]
  | cons x before ih =>
      obtain ⟨differs, others⟩ := List.forall_mem_cons.mp first
      rw [List.cons_append, replace, if_neg differs, ih others, List.cons_append]

theorem call_settled (s after : Simulation) (path : String) (call : Call)
    (result : Except BusError Output) (settled : Settled ⟨s.objects, s.bus⟩)
    (branch : Branch (s.call path call) (result, after)) :
    Settled ⟨after.objects, after.bus⟩ := by
  rcases call_cases s after path call result branch with
    ⟨-, -, rfl⟩ | ⟨o, o', bus, found, dispatched, rfl⟩
  · exact settled
  · obtain ⟨here, before, rest, split, first⟩ := List.find?_eq_some_iff_append.mp found
    have same := (Object.dispatch_sameClaims o s.bus call result o' bus dispatched).1
    have samePath : o'.path = o.path := congrArg Definition.path same.definition
    -- The object was found under its path, so the first one with this path is the
    -- one that was called.
    have replaced : replace o' s.objects = before ++ o' :: rest := by
      rw [split]
      apply replace_first before rest o o' samePath.symm
      intro x member
      have elsewhere := first x member
      simp only [beq_iff_eq] at here
      rw [samePath, here]
      simpa using elsewhere
    rw [split] at settled
    exact replaced ▸ World.settled_acts settled (.called dispatched) same

theorem reached_settled (s : Simulation) (reached : Reached s) : Settled ⟨s.objects, s.bus⟩ := by
  induction reached with
  | empty known builtins seed =>
      exact ⟨.empty, by simp [empty]⟩
  | @loaded s after text _ branch ih => exact load_settled s after text ih branch
  | @called s after path call result _ branch ih =>
      exact call_settled s after path call result ih branch
  | @ticked s after ticked _ branch ih =>
      obtain ⟨objects, bus, done, rfl⟩ := tick_cases s after ticked branch
      exact World.settled_tickAll s.objects [] objects ticked s.bus bus ih done
  | @reset s _ ih => exact World.settled_reset s.objects [] ih
  | signalsTaken _ ih => exact ⟨.stepped ih.reached .signalsTaken, ih.registered⟩
  | nameRefused name _ ih => exact ⟨.stepped ih.reached (.nameRefused name), ih.registered⟩
  | @shutdown s _ ih =>
      refine ⟨World.reached_shutdown s.objects s.bus ih.reached, ?_⟩
      intro o member
      cases member

theorem settled_paths (objects : List Object) (bus : Bus) (settled : Settled ⟨objects, bus⟩) :
    (objects.map Object.path).Nodup := by
  rw [List.Nodup, List.pairwise_map]
  apply (World.reached_exact _ settled.reached).apart.imp_of_mem
  intro a b first second apart
  exact (apart (settled.registered a first) (settled.registered b second)).1

end Simulation

/-- The tables of a bus are exact after any operations on the objects that share it,
and so are those of a simulation, whose objects have different paths and leave
nothing behind when it shuts down. -/
theorem Bus.tables_exact :
    (∀ w, World.Reached w → w.Exact) ∧
    ∀ s : Simulation, Simulation.Reached s →
      World.Exact ⟨s.objects, s.bus⟩ ∧ (∀ o ∈ s.objects, o.registered = true) ∧
      (s.objects.map Object.path).Nodup ∧
      s.shutdown.objects = [] ∧ s.shutdown.bus.objects = [] ∧ s.shutdown.bus.names = [] := by
  refine ⟨World.reached_exact, ?_⟩
  intro s reached
  have settled := Simulation.reached_settled s reached
  have emptied := World.reached_shutdown s.objects s.bus settled.reached
  exact ⟨World.reached_exact _ settled.reached, settled.registered,
    Simulation.settled_paths s.objects s.bus settled, rfl,
    World.exact_nobody (World.reached_exact _ emptied)⟩

def Object.namedLamp : Object :=
  { unlitLamp with
    machine := Machine.new { lamp with names := ["test.Lamp", "test.Lamp"] } }

def lampSimulation : Simulation where
  known := lampKnown
  builtins := Builtin.standard
  seed := 0
  bus := { Bus.empty with objects := [("/lamp", ["test.Lamp", Interface.propertiesName])] }
  objects := [{ Object.unlitLamp with registered := true }]

theorem lamp_loads (s : Simulation) (known : s.known = lampKnown)
    (table : s.builtins = Builtin.standard) :
    s.load lampText = ExceptT.lift (Simulation.addObjects [lamp] s) := by
  rw [Simulation.load, known, table, lamp_parsed]

theorem lampSimulation_reached : Simulation.Reached lampSimulation := by
  have once : Branch ((Simulation.empty lampKnown Builtin.standard 0).load lampText).run
      (.ok lampSimulation) := by
    rw [lamp_loads _ rfl rfl]
    exact .done _
  exact .loaded (.empty _ _ _) once

theorem lamps_exact :
    (∃ on bus, World.Exact ⟨[on, Object.unlitLamp], bus⟩ ∧
      on.path = "/lamp" ∧ on.held = ["test.Lamp", "test.Lamp"] ∧
      bus.names = [("test.Lamp", "/lamp")]) ∧
    Simulation.Reached lampSimulation ∧ World.Exact ⟨lampSimulation.objects, lampSimulation.bus⟩ ∧
      lampSimulation.shutdown.bus.objects = [] := by
  constructor
  · have both : World.Reached ⟨[Object.namedLamp, Object.unlitLamp], Bus.empty⟩ :=
      .stepped (.stepped .empty (.created rfl rfl)) (.created rfl rfl)
    have first : World.Reached ⟨[] ++ _ :: [Object.unlitLamp], _⟩ :=
      .stepped both (.acted rfl (.registered rfl))
    have second : World.Reached ⟨[_] ++ Object.unlitLamp :: [], _⟩ :=
      .stepped first (.acted rfl (.refused rfl))
    exact ⟨_, _, Bus.tables_exact.1 _ second, rfl, rfl, rfl⟩
  · have again : Branch (lampSimulation.load lampText).run (.ok lampSimulation) := by
      rw [lamp_loads _ rfl rfl]
      exact .done _
    have reached := lampSimulation_reached.loaded again
    obtain ⟨exact, -, -, -, objects, -⟩ := Bus.tables_exact.2 lampSimulation reached
    exact ⟨reached, exact, objects⟩

end SimBus
