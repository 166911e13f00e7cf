import Mathlib.Data.List.Nodup
import Mathlib.Data.List.Range
import SimBus.Reachability
/-!
The worklist behind the classes of states computes exactly the nodes that paths
lead to. One step takes a node off the pending ones and selects the targets of
its edges; a node is pending once at most, so as many steps as there are nodes
empty the list. From this the classes of states get their meaning.
-/

namespace SimBus

namespace Reachability

/-- The nodes below `bound` at the ends of paths from node 0, none of which
leaves the nodes below `bound`. -/
inductive Connected (bound : Nat) (targets : Nat → List Nat) : Nat → Prop where
  | start : 0 < bound → Connected bound targets 0
  | follow {node target : Nat} : Connected bound targets node → target ∈ targets node →
      target < bound → Connected bound targets target

theorem connected_lt (bound : Nat) (targets : Nat → List Nat) (node : Nat)
    (connected : Connected bound targets node) : node < bound := by
  cases connected with
  | start positive => exact positive
  | follow _ _ inRange => exact inRange

theorem connected_mono (bound : Nat) (fewer more : Nat → List Nat)
    (included : ∀ node, fewer node ⊆ more node) (node : Nat)
    (connected : Connected bound fewer node) : Connected bound more node := by
  induction connected with
  | start positive => exact .start positive
  | follow _ edge inRange ih => exact .follow ih (included _ edge) inRange

def scan (bound : Nat) (found : List Nat) (work : Work) : Work := found.foldl (enqueue bound) work

theorem enqueue_selected (bound : Nat) (work : Work) (target node : Nat) :
    node ∈ (enqueue bound work target).selected ↔
      node ∈ work.selected ∨ (node = target ∧ target < bound) := by
  unfold enqueue
  by_cases outside : bound ≤ target
  · simp [outside, Nat.not_lt.mpr outside]
  · by_cases hit : target ∈ work.selected
    · simp only [hit, or_true, ↓reduceIte]
      constructor
      · exact Or.inl
      · rintro (old | ⟨rfl, -⟩)
        · exact old
        · exact hit
    · simp [outside, hit, Nat.lt_of_not_le outside, or_comm]

theorem enqueue_keeps_pending (bound : Nat) (work : Work) (target node : Nat)
    (pending : node ∈ work.pending) : node ∈ (enqueue bound work target).pending := by
  unfold enqueue
  split
  · exact pending
  · exact List.mem_append.mpr (.inl pending)

theorem enqueue_fresh_pending (bound : Nat) (work : Work) (target : Nat)
    (inRange : target < bound) (fresh : target ∉ work.selected) :
    target ∈ (enqueue bound work target).pending := by
  simp [enqueue, Nat.not_le.mpr inRange, fresh]

theorem scan_selected (bound : Nat) (found : List Nat) (work : Work) (node : Nat) :
    node ∈ (scan bound found work).selected ↔
      node ∈ work.selected ∨ (node ∈ found ∧ node < bound) := by
  induction found generalizing work with
  | nil => simp [scan]
  | cons target rest ih =>
      change node ∈ (scan bound rest (enqueue bound work target)).selected ↔ _
      rw [ih, enqueue_selected]
      constructor
      · rintro ((old | ⟨rfl, inRange⟩) | ⟨later, inRange⟩)
        · exact .inl old
        · exact .inr ⟨List.mem_cons_self, inRange⟩
        · exact .inr ⟨List.mem_cons_of_mem _ later, inRange⟩
      · rintro (old | ⟨member, inRange⟩)
        · exact .inl (.inl old)
        · rcases List.mem_cons.mp member with rfl | later
          · exact .inl (.inr ⟨rfl, inRange⟩)
          · exact .inr ⟨later, inRange⟩

theorem scan_keeps_pending (bound : Nat) (found : List Nat) (work : Work) (node : Nat)
    (pending : node ∈ work.pending) : node ∈ (scan bound found work).pending := by
  induction found generalizing work with
  | nil => exact pending
  | cons target rest ih => exact ih _ (enqueue_keeps_pending bound work target node pending)

theorem scan_fresh_pending (bound : Nat) (found : List Nat) (work : Work) (node : Nat)
    (member : node ∈ found) (inRange : node < bound) (fresh : node ∉ work.selected) :
    node ∈ (scan bound found work).pending := by
  induction found generalizing work with
  | nil => cases member
  | cons target rest ih =>
      by_cases same : node = target
      · subst same
        exact scan_keeps_pending bound rest _ node
          (enqueue_fresh_pending bound work node inRange fresh)
      · have later : node ∈ rest := (List.mem_cons.mp member).resolve_left same
        apply ih _ later
        intro selected
        rcases (enqueue_selected bound work target node).mp selected with old | ⟨now, -⟩
        · exact fresh old
        · exact same now

/-- The book-keeping after `handled` nodes were taken off the pending ones. -/
structure Balanced (handled : Nat) (work : Work) : Prop where
  nodup : work.selected.Nodup
  pendingNodup : work.pending.Nodup
  pendingSelected : ∀ node ∈ work.pending, node ∈ work.selected
  counted : work.selected.length = work.pending.length + handled

theorem enqueue_balanced (bound handled : Nat) (work : Work) (target : Nat)
    (balanced : Balanced handled work) : Balanced handled (enqueue bound work target) := by
  unfold enqueue
  by_cases skip : bound ≤ target ∨ target ∈ work.selected
  · simpa only [skip, ↓reduceIte] using balanced
  · have fresh : target ∉ work.selected := fun hit => skip (.inr hit)
    have freshPending : target ∉ work.pending := fun hit =>
      fresh (balanced.pendingSelected target hit)
    simp only [skip, ↓reduceIte]
    refine ⟨List.nodup_cons.mpr ⟨fresh, balanced.nodup⟩, ?_, ?_, ?_⟩
    · exact List.nodup_append.mpr ⟨balanced.pendingNodup, List.nodup_singleton target, by
        rintro node old _ last rfl
        exact freshPending (List.mem_singleton.mp last ▸ old)⟩
    · intro node member
      rcases List.mem_append.mp member with old | new
      · exact List.mem_cons_of_mem _ (balanced.pendingSelected node old)
      · exact List.mem_cons.mpr (.inl (List.mem_singleton.mp new))
    · have counted := balanced.counted
      simp only [List.length_cons, List.length_append, List.length_nil]
      omega

theorem scan_balanced (bound handled : Nat) (found : List Nat) (work : Work)
    (balanced : Balanced handled work) : Balanced handled (scan bound found work) := by
  induction found generalizing work with
  | nil => exact balanced
  | cons target rest ih => exact ih _ (enqueue_balanced bound handled work target balanced)

/-- The invariant of the exploration: what is selected is connected, and the
edges of what is selected and no longer pending were followed. -/
structure Exploring (bound : Nat) (targets : Nat → List Nat) (handled : Nat) (work : Work) : Prop
    extends Balanced handled work where
  sound : ∀ node ∈ work.selected, Connected bound targets node
  followed : ∀ node ∈ work.selected, node ∉ work.pending → ∀ target ∈ targets node,
    target < bound → target ∈ work.selected

theorem start_exploring (bound : Nat) (targets : Nat → List Nat) (positive : 0 < bound) :
    Exploring bound targets 0 ⟨[0], [0]⟩ where
  nodup := List.nodup_singleton 0
  pendingNodup := List.nodup_singleton 0
  pendingSelected _ member := member
  counted := rfl
  sound _ member := List.mem_singleton.mp member ▸ .start positive
  followed _ member notPending := absurd member notPending

theorem pop_exploring (bound : Nat) (targets : Nat → List Nat) (handled node : Nat)
    (rest selected : List Nat)
    (before : Exploring bound targets handled ⟨selected, node :: rest⟩) :
    Exploring bound targets (handled + 1) (scan bound (targets node) ⟨selected, rest⟩) := by
  have popped : Balanced (handled + 1) ⟨selected, rest⟩ := by
    refine ⟨before.nodup, (List.nodup_cons.mp before.pendingNodup).2,
      fun other member => before.pendingSelected other (List.mem_cons_of_mem _ member), ?_⟩
    have counted := before.counted
    simp only [List.length_cons] at counted ⊢
    omega
  have nodeConnected : Connected bound targets node :=
    before.sound node (before.pendingSelected node List.mem_cons_self)
  refine ⟨scan_balanced bound (handled + 1) (targets node) _ popped, ?_, ?_⟩
  · intro other member
    rcases (scan_selected bound _ _ other).mp member with old | ⟨edge, inRange⟩
    · exact before.sound other old
    · exact .follow nodeConnected edge inRange
  · intro other member notPending target edge inRange
    refine (scan_selected bound _ _ target).mpr ?_
    by_cases isNode : other = node
    · subst isNode
      exact .inr ⟨edge, inRange⟩
    · -- A node that the scan selected would still be pending.
      have old : other ∈ selected := by
        by_contra fresh
        rcases (scan_selected bound _ _ other).mp member with old | ⟨found, below⟩
        · exact fresh old
        · exact notPending (scan_fresh_pending bound _ _ other found below fresh)
      have settled : other ∉ node :: rest := by
        intro pending
        rcases List.mem_cons.mp pending with same | inRest
        · exact isNode same
        · exact notPending (scan_keeps_pending bound _ _ other inRest)
      exact .inl (before.followed other old settled target edge inRange)

theorem selected_length_le (bound : Nat) (targets : Nat → List Nat) (handled : Nat) (work : Work)
    (exploring : Exploring bound targets handled work) : work.selected.length ≤ bound := by
  have inRange : work.selected ⊆ List.range bound := fun node member =>
    List.mem_range.mpr (connected_lt bound targets node (exploring.sound node member))
  simpa using exploring.nodup.length_le_of_subset inRange

theorem finished_exact (bound : Nat) (targets : Nat → List Nat) (handled : Nat) (work : Work)
    (exploring : Exploring bound targets handled work) (finished : work.pending = [])
    (start : 0 ∈ work.selected) (node : Nat) :
    node ∈ work.selected ↔ Connected bound targets node := by
  constructor
  · exact exploring.sound node
  · intro connected
    induction connected with
    | start _ => exact start
    | @follow source target _ edge inRange ih =>
        exact exploring.followed source ih (by simp [finished]) target edge inRange

/-- The steps that are left and the nodes that are handled make up `bound`, so
the steps cannot run out before the pending nodes do. -/
theorem explore_exact (bound : Nat) (targets : Nat → List Nat) (steps handled : Nat) (work : Work)
    (exploring : Exploring bound targets handled work) (start : 0 ∈ work.selected)
    (enough : steps + handled = bound) (node : Nat) :
    node ∈ explore bound targets steps work ↔ Connected bound targets node := by
  induction steps generalizing handled work with
  | zero =>
      have atMost := selected_length_le bound targets handled work exploring
      have counted := exploring.counted
      have finished : work.pending = [] := List.eq_nil_of_length_eq_zero (by omega)
      exact finished_exact bound targets handled work exploring finished start node
  | succ steps ih =>
      rcases work with ⟨selected, pending⟩
      cases pending with
      | nil => exact finished_exact bound targets handled ⟨selected, []⟩ exploring rfl start node
      | cons first rest =>
          exact ih (handled + 1) _
            (pop_exploring bound targets handled first rest selected exploring)
            ((scan_selected bound _ _ 0).mpr (.inl start)) (by omega)

theorem mem_closure_iff (bound : Nat) (targets : Nat → List Nat) (node : Nat) :
    node ∈ closure bound targets ↔ Connected bound targets node := by
  unfold closure
  by_cases empty : bound = 0
  · simp only [empty, ↓reduceIte, List.not_mem_nil, false_iff]
    exact fun connected => absurd (connected_lt 0 targets node connected) (Nat.not_lt_zero node)
  · simp only [empty, ↓reduceIte]
    exact explore_exact bound targets bound 0 ⟨[0], [0]⟩
      (start_exploring bound targets (Nat.pos_of_ne_zero empty)) List.mem_cons_self rfl node

end Reachability

namespace Definition

open Reachability (Connected mem_closure_iff)

theorem stateClasses_getElem? (d : Definition) (state : Nat) (name : String) (c : StateClass) :
    d.stateClasses[state]? = some (name, c) ↔ d.states[state]? = some name ∧
      classify (Reachability.closure d.states.length d.certainTargets)
        (Reachability.closure d.states.length d.possibleTargets) state = c := by
  simp [stateClasses, List.getElem?_zipIdx, and_comm]

theorem stateClass_reachable_iff (d : Definition) (state : Nat) (name : String) :
    d.stateClasses[state]? = some (name, .reachable) ↔
      d.states[state]? = some name ∧ Connected d.states.length d.certainTargets state := by
  rw [stateClasses_getElem?, ← mem_closure_iff]
  refine and_congr_right fun _ => ?_
  unfold classify
  split_ifs <;> simp_all

theorem mem_possibleTargets_iff (d : Definition) (state target : Nat) :
    target ∈ d.possibleTargets state ↔
      ∃ t ∈ d.transitions, t.source = state ∧ t.alwaysThrows = false ∧ t.target = target := by
  simp [possibleTargets, and_assoc]

theorem mem_certainTargets_iff (d : Definition) (state target : Nat) :
    target ∈ d.certainTargets state ↔ ∃ t ∈ d.transitions, t.source = state ∧
      t.alwaysThrows = false ∧ d.isCertain t = true ∧ t.target = target := by
  simp [certainTargets, and_assoc]

theorem certain_connected_possible (d : Definition) (state : Nat)
    (connected : Connected d.states.length d.certainTargets state) :
    Connected d.states.length d.possibleTargets state := by
  refine Reachability.connected_mono _ _ _ ?_ state connected
  intro source target edge
  obtain ⟨t, member, from', runs, -, to'⟩ := (mem_certainTargets_iff d source target).mp edge
  exact (mem_possibleTargets_iff d source target).mpr ⟨t, member, from', runs, to'⟩

theorem stateClass_unreachable_iff (d : Definition) (state : Nat) (name : String) :
    d.stateClasses[state]? = some (name, .unreachable) ↔
      d.states[state]? = some name ∧ ¬ Connected d.states.length d.possibleTargets state := by
  have included := certain_connected_possible d state
  rw [stateClasses_getElem?]
  refine and_congr_right fun _ => ?_
  rw [← mem_closure_iff] at included ⊢
  rw [← mem_closure_iff] at included
  unfold classify
  split_ifs <;> simp_all

end Definition

end SimBus
