import Mathlib.Logic.Relation
import SimBus.Proofs.CertainSteps
/-!
What the classes of states mean. A state is reachable when a path of certain transitions
leads to it from the initial state, and possibly reachable when only a path of transitions
that can run to their end does. This holds of every definition, also of one whose
transitions come from or lead to numbers that no state has.
-/

namespace SimBus

namespace Reachability

variable (bound : Nat) (targets : Nat → List Nat)

/-- One step of the exploration: the first pending node is taken off, and its targets are
selected. -/
def pop (work : Work) : Work :=
  match work.pending with
  | [] => work
  | node :: rest => scan bound (targets node) ⟨work.selected, rest⟩

def walk (steps : Nat) : Work :=
  (pop bound targets)^[steps] (if bound = 0 then ⟨[], []⟩ else ⟨[0], [0]⟩)

theorem explore_eq_pop (steps : Nat) (work : Work) :
    explore bound targets steps work = ((pop bound targets)^[steps] work).selected := by
  induction steps generalizing work with
  | zero => rfl
  | succ steps ih =>
      rcases work with ⟨selected, pending⟩
      cases pending with
      | nil =>
          have still : pop bound targets ⟨selected, []⟩ = ⟨selected, []⟩ := rfl
          rw [Function.iterate_fixed still]
          rfl
      | cons node rest => exact ih _

theorem closure_eq_walk : closure bound targets = (walk bound targets bound).selected := by
  unfold closure walk
  by_cases empty : bound = 0
  · subst empty
    rfl
  · simp only [empty, ↓reduceIte]
    exact explore_eq_pop bound targets bound ⟨[0], [0]⟩

/-- As long as nodes are pending, every step handles one of them. -/
theorem walk_exploring (positive : 0 < bound) (steps : Nat) :
    ∃ handled, Exploring bound targets handled (walk bound targets steps) ∧
      ((walk bound targets steps).pending = [] ∨ handled = steps) := by
  induction steps with
  | zero =>
      refine ⟨0, ?_, .inr rfl⟩
      simp only [walk, Nat.ne_of_gt positive, ↓reduceIte]
      exact start_exploring bound targets positive
  | succ steps ih =>
      obtain ⟨handled, exploring, progress⟩ := ih
      have next : walk bound targets (steps + 1) = pop bound targets (walk bound targets steps) :=
        Function.iterate_succ_apply' _ _ _
      rw [next]
      generalize walk bound targets steps = work at exploring progress
      rcases work with ⟨selected, pending⟩
      cases pending with
      | nil => exact ⟨handled, exploring, .inl rfl⟩
      | cons node rest =>
          have counted : handled = steps := progress.resolve_left (List.cons_ne_nil _ _)
          exact ⟨handled + 1, pop_exploring bound targets handled node rest selected exploring,
            .inr (congrArg (· + 1) counted)⟩

theorem walk_empty (steps : Nat) : walk 0 targets steps = ⟨[], []⟩ := by
  have still : pop 0 targets ⟨[], []⟩ = ⟨[], []⟩ := rfl
  exact Function.iterate_fixed still steps

theorem walk_inRange (steps node : Nat) (pending : node ∈ (walk bound targets steps).pending) :
    node < bound := by
  rcases Nat.eq_zero_or_pos bound with rfl | positive
  · simp [walk_empty] at pending
  · obtain ⟨handled, exploring, -⟩ := walk_exploring bound targets positive steps
    exact connected_lt bound targets node
      (exploring.sound node (exploring.pendingSelected node pending))

theorem walk_finished : (walk bound targets bound).pending = [] := by
  rcases Nat.eq_zero_or_pos bound with rfl | positive
  · rfl
  · obtain ⟨handled, exploring, progress⟩ := walk_exploring bound targets positive bound
    rcases progress with finished | all
    · exact finished
    · have atMost := selected_length_le bound targets handled _ exploring
      have counted := exploring.counted
      exact List.eq_nil_of_length_eq_zero (by omega)

theorem connected_iff_path (edge : Nat → Nat → Prop)
    (edges : ∀ a b, edge a b ↔ a < bound ∧ b < bound ∧ b ∈ targets a) (node : Nat) :
    Connected bound targets node ↔ node < bound ∧ Relation.ReflTransGen edge 0 node := by
  constructor
  · intro connected
    refine ⟨connected_lt bound targets node connected, ?_⟩
    induction connected with
    | start => exact .refl
    | @follow source target before member inRange ih =>
        have here := connected_lt bound targets source before
        exact ih.tail ((edges source target).mpr ⟨here, inRange, member⟩)
  · rintro ⟨inRange, path⟩
    induction path with
    | refl => exact .start inRange
    | @tail source target _ step ih =>
        obtain ⟨here, -, member⟩ := (edges source target).mp step
        exact .follow (ih here) member inRange

end Reachability

def Transition.ThrowFree (t : Transition) : Prop := ∀ error message, .throw error message ∉ t.body

theorem Transition.alwaysThrows_eq_false_iff (t : Transition) :
    t.alwaysThrows = false ↔ t.ThrowFree := by
  rw [alwaysThrows, List.any_eq_false]
  constructor
  · intro none error message member
    exact none _ member rfl
  · intro free s member
    cases s with
    | throw error message => exact absurd member (free error message)
    | assign | reply | emit => exact Bool.false_ne_true

theorem Transition.isUnconditional_iff (t : Transition) :
    t.isUnconditional = true ↔ ∀ p ∈ t.preconditions, p.condition = .literal (.bool true) := by
  rw [isUnconditional, List.all_eq_true]
  exact forall₂_congr fun p _ => p.isTrivial_iff

namespace Definition

open Relation (ReflTransGen)
open Reachability (Connected connected_iff_path walk)

variable (d : Definition)

/-- No other transition has the source and the trigger of the one at the place. -/
def Alone (place : Nat) (t : Transition) : Prop :=
  ∀ (other : Nat) (rival : Transition), d.transitions[other]? = some rival →
    rival.source = t.source → rival.trigger = t.trigger → other = place

def PossibleEdge (source target : Nat) : Prop :=
  source < d.states.length ∧ target < d.states.length ∧
    ∃ t ∈ d.transitions, t.source = source ∧ t.target = target ∧ t.ThrowFree

/-- The same, with a transition that is taken whenever its trigger comes: not an arbitrary
one, without preconditions but the constant `true`, and without rivals. -/
def CertainEdge (source target : Nat) : Prop :=
  source < d.states.length ∧ target < d.states.length ∧
    ∃ (place : Nat) (t : Transition), d.transitions[place]? = some t ∧
      t.source = source ∧ t.target = target ∧ t.ThrowFree ∧ t.trigger ≠ .arbitrary ∧
      (∀ p ∈ t.preconditions, p.condition = .literal (.bool true)) ∧ d.Alone place t

theorem isContested_eq_false_iff (place : Nat) (t : Transition)
    (placed : d.transitions[place]? = some t) : d.isContested t = false ↔ d.Alone place t := by
  have atMostOne (l : List Transition) : l.length ≤ 1 ↔ l.Pairwise fun _ _ => False := by
    rcases l with _ | ⟨a, _ | ⟨b, rest⟩⟩
    · simp
    · simp
    · constructor
      · intro short
        simp at short
      · intro apart
        exact (List.rel_of_pairwise_cons apart List.mem_cons_self).elim
  rw [isContested, decide_eq_false_iff_not, Nat.not_lt, atMostOne, List.pairwise_filter,
    List.pairwise_iff_getElem]
  obtain ⟨inRange, here⟩ := List.getElem?_eq_some_iff.mp placed
  simp only [Bool.and_eq_true, beq_iff_eq]
  constructor
  · intro apart other rival found source trigger
    obtain ⟨otherInRange, there⟩ := List.getElem?_eq_some_iff.mp found
    -- The one that comes first of two rivals would exclude the other.
    rcases Nat.lt_trichotomy other place with before | same | behind
    · exact (apart other place otherInRange inRange before (by simp [there, source, trigger])
        (by simp [here])).elim
    · exact same
    · exact (apart place other inRange otherInRange behind (by simp [here])
        (by simp [there, source, trigger])).elim
  · intro alone i j iInRange jInRange before iReacts jReacts
    have first := alone i _ (List.getElem?_eq_getElem iInRange) iReacts.1 iReacts.2
    have second := alone j _ (List.getElem?_eq_getElem jInRange) jReacts.1 jReacts.2
    omega

theorem possibleEdge_iff (source target : Nat) :
    d.PossibleEdge source target ↔ source < d.states.length ∧ target < d.states.length ∧
      target ∈ d.possibleTargets source := by
  rw [PossibleEdge, mem_possibleTargets_iff]
  simp only [Transition.alwaysThrows_eq_false_iff]
  refine and_congr_right fun _ => and_congr_right fun _ => exists_congr fun t => ?_
  tauto

theorem isCertain_iff (place : Nat) (t : Transition) (placed : d.transitions[place]? = some t) :
    d.isCertain t = true ↔ t.trigger ≠ .arbitrary ∧
      (∀ p ∈ t.preconditions, p.condition = .literal (.bool true)) ∧ d.Alone place t := by
  rw [isCertain, Bool.and_eq_true, Bool.and_eq_true, bne_iff_ne, Bool.not_eq_true',
    d.isContested_eq_false_iff place t placed, t.isUnconditional_iff]
  tauto

theorem certainEdge_iff (source target : Nat) :
    d.CertainEdge source target ↔ source < d.states.length ∧ target < d.states.length ∧
      target ∈ d.certainTargets source := by
  rw [CertainEdge, mem_certainTargets_iff]
  simp only [Transition.alwaysThrows_eq_false_iff]
  refine and_congr_right fun _ => and_congr_right fun _ => ?_
  constructor
  · rintro ⟨place, t, placed, from', to', free, certain⟩
    exact ⟨t, List.mem_of_getElem? placed, from', free,
      (d.isCertain_iff place t placed).mpr certain, to'⟩
  · rintro ⟨t, member, from', free, certain, to'⟩
    obtain ⟨place, placed⟩ := List.mem_iff_getElem?.mp member
    exact ⟨place, t, placed, from', to', free, (d.isCertain_iff place t placed).mp certain⟩

theorem mem_closure_certain_iff (state : Nat) (inRange : state < d.states.length) :
    state ∈ Reachability.closure d.states.length d.certainTargets ↔
      ReflTransGen d.CertainEdge 0 state := by
  rw [Reachability.mem_closure_iff, connected_iff_path _ _ d.CertainEdge d.certainEdge_iff]
  exact and_iff_right inRange

theorem mem_closure_possible_iff (state : Nat) (inRange : state < d.states.length) :
    state ∈ Reachability.closure d.states.length d.possibleTargets ↔
      ReflTransGen d.PossibleEdge 0 state := by
  rw [Reachability.mem_closure_iff, connected_iff_path _ _ d.PossibleEdge d.possibleEdge_iff]
  exact and_iff_right inRange

theorem stateClasses_iff (state : Nat) (name : String) (c : StateClass) :
    d.stateClasses[state]? = some (name, c) ↔ d.states[state]? = some name ∧
      match c with
      | .reachable => ReflTransGen d.CertainEdge 0 state
      | .possiblyReachable =>
          ¬ ReflTransGen d.CertainEdge 0 state ∧ ReflTransGen d.PossibleEdge 0 state
      | .unreachable =>
          ¬ ReflTransGen d.CertainEdge 0 state ∧ ¬ ReflTransGen d.PossibleEdge 0 state := by
  rw [stateClasses_getElem?]
  refine and_congr_right fun named => ?_
  have inRange : state < d.states.length := (List.getElem?_eq_some_iff.mp named).1
  rw [← d.mem_closure_certain_iff state inRange, ← d.mem_closure_possible_iff state inRange]
  unfold classify
  by_cases certain : state ∈ Reachability.closure d.states.length d.certainTargets
  · cases c <;> simp [certain]
  · by_cases possible : state ∈ Reachability.closure d.states.length d.possibleTargets
    · cases c <;> simp [certain, possible]
    · cases c <;> simp [certain, possible]

/-- The classes are exact. A state is reachable when certain edges lead to it from state 0,
possibly reachable when only possible ones do, and unreachable otherwise. Both explorations
end in as many steps as there are states, and handle nothing that is no state. -/
theorem stateClasses_exact :
    (∀ state name, d.stateClasses[state]? = some (name, .reachable) ↔
      d.states[state]? = some name ∧ ReflTransGen d.CertainEdge 0 state) ∧
    (∀ state name, d.stateClasses[state]? = some (name, .possiblyReachable) ↔
      d.states[state]? = some name ∧ ¬ ReflTransGen d.CertainEdge 0 state ∧
        ReflTransGen d.PossibleEdge 0 state) ∧
    (∀ state name, d.stateClasses[state]? = some (name, .unreachable) ↔
      d.states[state]? = some name ∧ ¬ ReflTransGen d.CertainEdge 0 state ∧
        ¬ ReflTransGen d.PossibleEdge 0 state) ∧
    ∀ targets ∈ [d.certainTargets, d.possibleTargets],
      Reachability.closure d.states.length targets =
        (walk d.states.length targets d.states.length).selected ∧
      (walk d.states.length targets d.states.length).pending = [] ∧
      ∀ steps, ∀ node ∈ (walk d.states.length targets steps).pending, node < d.states.length := by
  refine ⟨fun state name => d.stateClasses_iff state name .reachable,
    fun state name => d.stateClasses_iff state name .possiblyReachable,
    fun state name => d.stateClasses_iff state name .unreachable, ?_⟩
  intro targets _
  exact ⟨Reachability.closure_eq_walk _ targets, Reachability.walk_finished _ targets,
    Reachability.walk_inRange _ targets⟩

def house : Definition where
  path := "/house"
  names := []
  interfaces := []
  data := []
  states := ["room", "room", "attic", "cellar", "vault"]
  transitions :=
    [⟨0, 1, .method "test.House" "Walk", [], [⟨"test.Never", .literal (.bool true)⟩], [], ⟨1, 1⟩⟩,
      ⟨0, 2, .method "test.House" "Climb", [], [], [], ⟨2, 1⟩⟩,
      ⟨0, 8, .method "test.House" "Climb", [], [], [.throw "test.Fallen" none], ⟨3, 1⟩⟩,
      ⟨8, 3, .method "test.House" "Walk", [], [], [], ⟨4, 1⟩⟩,
      ⟨1, 8, .method "test.House" "Walk", [], [], [], ⟨5, 1⟩⟩,
      ⟨2, 3, .arbitrary, [], [], [], ⟨6, 1⟩⟩,
      ⟨3, 4, .method "test.House" "Break", [], [], [.throw "test.Locked" none], ⟨7, 1⟩⟩]
  position := ⟨1, 1⟩

theorem house_exact :
    ReflTransGen house.CertainEdge 0 1 ∧ ¬ ReflTransGen house.CertainEdge 0 2 ∧
      ReflTransGen house.PossibleEdge 0 3 ∧ ¬ ReflTransGen house.PossibleEdge 0 4 := by
  obtain ⟨reachable, possibly, unreachable, -⟩ := stateClasses_exact house
  refine ⟨((reachable 1 "room").mp (by decide)).2, ((possibly 2 "attic").mp (by decide)).2.1,
    ((possibly 3 "cellar").mp (by decide)).2.2, ((unreachable 4 "vault").mp (by decide)).2.2⟩

end Definition

end SimBus
