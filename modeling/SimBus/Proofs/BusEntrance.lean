import SimBus.Proofs.Arrivals
/-!
States that calls can bring an object into. Along certain transitions whose
triggers arrive there are calls that do it whatever is drawn, short of a fault in
a body. The class `reachable` alone does not promise this, since it is judged by
the transitions and not by what calls can deliver: a state behind a property
that nobody may write counts as reachable and is never entered.
-/

namespace SimBus

open Draws (Branch branch_exists branch_pure_triple branch_bind_iff)
open Statement (Ends)
open Reachability (Connected)

namespace Object

/-- The call sets off a transition of the current state, whose body has a fault
of evaluation, and this is the answer. -/
def FaultsOn (o : Object) (call : Call) (result : Except BusError Output) : Prop :=
  ∃ t ∈ o.definition.transitions, ∃ arguments locals e middle output,
    t.source = o.machine.current ∧ o.Delivers call t.trigger arguments ∧
      t.bindArguments arguments = .ok locals ∧
      Ends o.builtins locals t.body o.env (.faulted e) middle output ∧
      result = .error (.machine (.eval e))

/-- The calls, dispatched one after the other on whatever bus, end in the state
for all random numbers, unless there is a fault in a body on the way. -/
def Enters (state : Nat) : Object → List Call → Prop
  | o, [] => o.machine.current = state
  | o, call :: rest => ∀ bus result after busAfter,
      Branch (o.dispatch bus call) (result, after, busAfter) →
        o.FaultsOn call result ∨ Enters state after rest

/-! Calls for certain transitions. -/

theorem delivered_takes (o : Object) (t : Transition) (member : t ∈ o.definition.transitions)
    (source : t.source = o.machine.current) (takes : o.definition.Takes t) (call : Call)
    (arguments : List Value) (typed : arguments.map Value.ty = t.parameters.map Prod.snd)
    (delivers : o.Delivers call t.trigger arguments) (bus busAfter : Bus)
    (result : Except BusError Output) (after : Object)
    (branch : Branch (o.dispatch bus call) (result, after, busAfter)) :
    o.FaultsOn call result ∨ after.machine.current = t.target := by
  have reacts : o.machine.accepts t.trigger = true :=
    List.any_eq_true.mpr ⟨t, member, by simp [Machine.reacts, source]⟩
  obtain ⟨inner, fired, acknowledged⟩ :=
    dispatch_delivers o bus busAfter call t.trigger arguments result after delivers reacts branch
  obtain ⟨⟨answer, machine, env⟩, firing, continued⟩ := (branch_bind_iff _ _ _).mp fired
  -- What a certain transition does is known of machines in its source state.
  have here : o.machine = ⟨o.definition, t.source⟩ := by rw [source]; rfl
  rw [here] at firing
  rcases takes o.builtins o.env arguments typed answer machine env firing with
    ⟨firing, rfl, -, -, rfl⟩ | ⟨locals, e, middle, output, rfl, bound, ends⟩
  · obtain ⟨-, rfl, -⟩ := branch_pure_triple continued
    exact .inr rfl
  · obtain ⟨rfl, -, -⟩ := branch_pure_triple continued
    refine .inl ⟨t, member, arguments, locals, e, middle, output, source, delivers, bound, ends, ?_⟩
    rcases acknowledged with same | same <;> exact same

theorem enters_snoc (d : Definition) (known : InterfaceSet) (middle last : Nat) (call : Call)
    (leads : ∀ o : Object, o.definition = d → o.known = known → o.machine.current = middle →
      Enters last o [call])
    (calls : List Call) (o : Object) (definition : o.definition = d) (knows : o.known = known)
    (enters : Enters middle o calls) : Enters last o (calls ++ [call]) := by
  induction calls generalizing o with
  | nil => exact leads o definition knows enters
  | cons first rest ih =>
      intro bus result after busAfter branch
      obtain ⟨known', definition'⟩ := dispatch_constant o bus busAfter first result after branch
      exact (enters bus result after busAfter branch).imp_right
        (ih after (definition'.trans definition) (known'.trans knows))

theorem connected_enters (d : Definition) (known : InterfaceSet) (linked : d.Linked known)
    (state : Nat)
    (connected : Connected d.states.length (d.arriving known).certainTargets state) :
    ∃ calls, (∀ call ∈ calls, call.Addresses d) ∧ ∀ o : Object, o.definition = d →
      o.known = known → o.machine.current = 0 → Enters state o calls := by
  induction connected with
  | start _ => exact ⟨[], by simp, fun o _ _ initial => initial⟩
  | @follow middle target _ edge _ ih =>
      obtain ⟨calls, addressed, enters⟩ := ih
      obtain ⟨t, inArriving, source, runs, certain, rfl⟩ :=
        (Definition.mem_certainTargets_iff _ middle target).mp edge
      obtain ⟨member, arrives⟩ := (d.mem_arriving_iff known t).mp inArriving
      rw [d.arriving_isCertain known t arrives] at certain
      have takes := d.certain_takes t member certain runs
      obtain ⟨call, arguments, addresses, typed, delivers⟩ :=
        arrives_delivered d known linked t member arrives
      refine ⟨calls ++ [call], ?_, ?_⟩
      · intro other inCalls
        rcases List.mem_append.mp inCalls with old | new
        · exact addressed other old
        · exact List.mem_singleton.mp new ▸ addresses
      · intro o definition knows initial
        refine enters_snoc d known middle t.target call ?_ calls o definition knows
          (enters o definition knows initial)
        -- Whatever the calls before have left behind, one more call is enough.
        rintro o rfl rfl here bus result after busAfter branch
        exact delivered_takes o t member (source.trans here.symm) takes call arguments typed
          (delivers o rfl rfl) bus busAfter result after branch

/-- Into a state that is reachable by transitions whose triggers arrive, calls
bring every fresh object of an accepted program. -/
theorem reachable_entered (table : BuiltinTable) (known : InterfaceSet) (text : String)
    (program : Program) (d : Definition) (state : Nat) (name : String)
    (accepted : Program.parse table known text = .ok program) (member : d ∈ program.definitions)
    (classified : (d.arriving known).stateClasses[state]? = some (name, .reachable)) :
    ∃ calls, (∀ call ∈ calls, call.Addresses d) ∧
      ∀ o, Branch (create d known table).run (.ok o) → Enters state o calls := by
  obtain ⟨raw, ctx, resolved⟩ :=
    Resolution.parse_resolved table known text program d accepted member
  obtain ⟨-, connected⟩ := (Definition.stateClass_reachable_iff _ state name).mp classified
  obtain ⟨calls, addressed, enters⟩ :=
    connected_enters d known (Resolution.resolved_linked resolved) state connected
  refine ⟨calls, addressed, fun o created => ?_⟩
  obtain ⟨knows, definition⟩ := reached_constant d known table (fun _ => True) o (.created created)
  obtain ⟨machine, -, -⟩ := create_ok d known table o created
  exact enters o definition knows (by rw [machine]; rfl)

theorem lamp_on_entered :
    (lamp.arriving lampKnown).stateClasses[1]? = some ("on", .reachable) ∧
      ∃ calls, (∀ call ∈ calls, call.Addresses lamp) ∧
        ∀ o, Branch (create lamp lampKnown Builtin.standard).run (.ok o) → Enters 1 o calls :=
  ⟨by decide, reachable_entered Builtin.standard lampKnown lampText ⟨[lamp], []⟩ lamp 1 "on"
    lamp_parsed (List.mem_singleton_self lamp) (by decide)⟩

/-! States that calls do not lead to. -/

theorem entered_possible (d : Definition) (known : InterfaceSet) (inRange : d.InRange)
    (sound : ∀ t ∈ (d.arriving known).transitions, ∀ table locals env e middle output,
      ¬ Ends table locals t.body env (.faulted e) middle output)
    (state : Nat) (calls : List Call) (o : Object) (definition : o.definition = d)
    (knows : o.known = known)
    (connected : Connected d.states.length (d.arriving known).possibleTargets o.machine.current)
    (enters : Enters state o calls) :
    Connected d.states.length (d.arriving known).possibleTargets state := by
  induction calls generalizing o with
  | nil => exact enters ▸ connected
  | cons call rest ih =>
      -- Every call has some answer, and one of them is enough here.
      obtain ⟨⟨result, after, busAfter⟩, branch⟩ := branch_exists (o.dispatch Bus.empty call)
      obtain ⟨known', definition'⟩ := dispatch_constant o _ busAfter call result after branch
      rcases enters Bus.empty result after busAfter branch with
        ⟨t, member, arguments, locals, e, middle, output, -, delivers, -, ends, -⟩ | later
      · subst definition knows
        have arrives := delivers_arrives o call t.trigger arguments delivers
        exact absurd ends (sound t ((Definition.mem_arriving_iff _ _ t).mpr ⟨member, arrives⟩)
          _ _ _ _ _ _)
      · refine ih after (definition'.trans definition) (known'.trans knows) ?_ later
        rcases dispatch_moves o Bus.empty busAfter call result after branch with
          stays | ⟨t, member, source, runs, moves⟩
        · exact stays ▸ connected
        · subst definition knows
          have target := inRange.target t ((Definition.mem_arriving_iff _ _ t).mp member).1
          rw [moves]
          exact .follow connected ((Definition.mem_possibleTargets_iff _ _ _).mpr
            ⟨t, member, source, runs, rfl⟩) target

theorem unmoved (d : Definition) (known : InterfaceSet) (table : BuiltinTable) (inRange : d.InRange)
    (nothing : (d.arriving known).transitions = []) (state : Nat) (calls : List Call) (o : Object)
    (created : Branch (create d known table).run (.ok o)) (enters : Enters state o calls) :
    state = 0 := by
  obtain ⟨knows, definition⟩ := reached_constant d known table (fun _ => True) o (.created created)
  obtain ⟨machine, -, -⟩ := create_ok d known table o created
  have initial : o.machine.current = 0 := by rw [machine]; rfl
  have connected := entered_possible d known inRange (by simp [nothing]) state calls o definition
    knows (initial ▸ .start inRange.initial) enters
  cases connected with
  | start _ => rfl
  | follow _ edge _ => simp [Definition.possibleTargets, nothing] at edge

def vaultText : String :=
  "object at /vault implements test.Vault " ++ braced
    ("states " ++ braced "shut; ajar;" ++
      "transition from shut to ajar on property closed " ++ braced "") ++
  "object at /safe implements org.freedesktop.DBus.Properties " ++ braced
    ("states " ++ braced "shut; ajar;" ++
      "transition from shut to ajar on method Open " ++ braced "reply();")

def vaultKnown : InterfaceSet :=
  ⟨[⟨"test.Vault", [], [], [⟨"closed", .bool, .read⟩]⟩,
    ⟨Interface.propertiesName, [⟨"Open", [], []⟩], [], []⟩]⟩

def vault : Definition where
  path := "/vault"
  names := []
  interfaces := ["test.Vault"]
  data := []
  states := ["shut", "ajar"]
  transitions := [⟨0, 1, .property "test.Vault" "closed", [("value", .bool)], [], [], ⟨1, 64⟩⟩]
  position := ⟨1, 1⟩

def safe : Definition where
  path := "/safe"
  names := []
  interfaces := [Interface.propertiesName]
  data := []
  states := ["shut", "ajar"]
  transitions :=
    [⟨0, 1, .method Interface.propertiesName "Open", [], [], [.reply (.tuple [])], ⟨1, 201⟩⟩]
  position := ⟨1, 118⟩

set_option maxRecDepth 100000 in
theorem vault_parsed : Program.parse Builtin.standard vaultKnown vaultText =
    .ok ⟨[vault, safe], [⟨"/vault", ⟨1, 96⟩, .neverFires "closed"⟩]⟩ := by
  rw [Program.parse_ofRead _ _ _ ?cs ?raw ?after ?chars ?reads]
  case chars =>
    unfold vaultText braced
    simp only [String.toList_append]
    repeat rewrite [String.toList_ofList]
    rfl
  case reads =>
    cbv
    rfl
  rfl

/-- The second states of the vault and of the safe are reachable, and no calls
lead there. -/
theorem vault_unentered :
    Program.parse Builtin.standard vaultKnown vaultText =
        .ok ⟨[vault, safe], [⟨"/vault", ⟨1, 96⟩, .neverFires "closed"⟩]⟩ ∧
      ∀ d ∈ [vault, safe], d.stateClasses = [("shut", .reachable), ("ajar", .reachable)] ∧
        ¬ ∃ calls, ∀ o, Branch (create d vaultKnown Builtin.standard).run (.ok o) →
          Enters 1 o calls := by
  have nowhere (d : Definition) (inRange : d.InRange)
      (nothing : (d.arriving vaultKnown).transitions = []) (o : Object)
      (created : Branch (create d vaultKnown Builtin.standard).run (.ok o)) :
      ¬ ∃ calls, ∀ o, Branch (create d vaultKnown Builtin.standard).run (.ok o) →
        Enters 1 o calls := by
    rintro ⟨calls, enters⟩
    have moved := unmoved d vaultKnown _ inRange nothing 1 calls o created (enters o created)
    exact absurd moved (by decide)
  refine ⟨vault_parsed, ?_⟩
  intro d member
  rcases List.mem_pair.mp member with rfl | rfl
  · exact ⟨by decide, nowhere vault ⟨by decide, by decide, by decide⟩ (by decide) _ (.done _)⟩
  · exact ⟨by decide, nowhere safe ⟨by decide, by decide, by decide⟩ (by decide) _ (.done _)⟩

end Object

end SimBus
