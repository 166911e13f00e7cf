import SimBus.Builtin.Standard
import SimBus.Proofs.Firings
/-!
Which transition fires. The ones that react to a trigger are tried in random order, and the
first whose preconditions all hold is executed. So every transition that is free to fire can
be the one that does, and no other can; where none is free, each of them can be the one that
tells why.
-/

namespace SimBus

theorem Value.beq_bool_iff (v : Value) (flag : Bool) :
    (v == .bool flag) = true ↔ v = .bool flag := by
  change Value.beq v (.bool flag) = true ↔ _
  cases v <;> simp [Value.beq]

namespace Precondition

/-- The condition comes to `true` at once, with neither a fault nor a draw. -/
def Holds (ctx : EvalContext) (p : Precondition) : Prop := p.condition.eval ctx = pure (.bool true)

def Fails (ctx : EvalContext) (p : Precondition) : Prop :=
  ∃ v, p.condition.eval ctx = pure v ∧ v ≠ .bool true

def FirstToFail (ctx : EvalContext) (preconditions : List Precondition) (p : Precondition) : Prop :=
  ∃ before after, preconditions = before ++ p :: after ∧ (∀ q ∈ before, q.Holds ctx) ∧ p.Fails ctx

variable (ctx : EvalContext)

theorem holds_or_fails (p : Precondition) (v : Value) (settled : p.condition.eval ctx = pure v) :
    p.Holds ctx ∨ p.Fails ctx := by
  by_cases holds : v = .bool true
  · subst holds
    exact .inl settled
  · exact .inr ⟨v, settled, holds⟩

theorem holds_not_fails (p : Precondition) (holds : p.Holds ctx) : ¬ p.Fails ctx := by
  rintro ⟨v, settled, differs⟩
  exact differs (Eval.pure_inj _ _ (settled.symm.trans holds))

theorem firstFailure_holds (p : Precondition) (rest : List Precondition) (holds : p.Holds ctx) :
    firstFailure ctx (p :: rest) = firstFailure ctx rest := by
  rw [firstFailure, holds, pure_bind, if_pos ((Value.beq_bool_iff _ true).mpr rfl)]

theorem firstFailure_allHold (preconditions : List Precondition)
    (hold : ∀ p ∈ preconditions, p.Holds ctx) : firstFailure ctx preconditions = pure none := by
  induction preconditions with
  | nil => rfl
  | cons p rest ih =>
      obtain ⟨here, later⟩ := List.forall_mem_cons.mp hold
      rw [firstFailure_holds ctx p rest here, ih later]

theorem firstFailure_firstToFail (preconditions : List Precondition) (p : Precondition)
    (first : FirstToFail ctx preconditions p) :
    firstFailure ctx preconditions = pure (some p.error) := by
  obtain ⟨before, after, rfl, hold, v, settled, differs⟩ := first
  induction before with
  | nil =>
      rw [List.nil_append, firstFailure, settled, pure_bind,
        if_neg (mt (Value.beq_bool_iff v true).mp differs)]
  | cons q before ih =>
      obtain ⟨here, later⟩ := List.forall_mem_cons.mp hold
      rw [List.cons_append, firstFailure_holds ctx q _ here, ih later]

theorem allHold_or_firstToFail (preconditions : List Precondition)
    (settled : ∀ p ∈ preconditions, ∃ v, p.condition.eval ctx = pure v) :
    (∀ p ∈ preconditions, p.Holds ctx) ∨ ∃ p, FirstToFail ctx preconditions p := by
  induction preconditions with
  | nil => simp
  | cons q rest ih =>
      obtain ⟨⟨v, value⟩, later⟩ := List.forall_mem_cons.mp settled
      rcases holds_or_fails ctx q v value with holds | fails
      · rcases ih later with hold | ⟨p, before, after, rfl, hold, fails⟩
        · exact .inl (List.forall_mem_cons.mpr ⟨holds, hold⟩)
        · exact .inr ⟨p, q :: before, after, rfl, List.forall_mem_cons.mpr ⟨holds, hold⟩, fails⟩
      · exact .inr ⟨q, [], rest, rfl, by simp, fails⟩

end Precondition

namespace Transition

variable (table : BuiltinTable) (env : Environment) (arguments : List Value) (t : Transition)

/-- What a transition is tried in: its parameters stand for the arguments. -/
def context : EvalContext := ⟨table, env, (t.parameters.map Prod.fst).zip arguments⟩

/-- The arguments fit the parameters, and the preconditions come to values with neither a
fault nor a draw. -/
structure Decided : Prop where
  fits : arguments.map Value.ty = t.parameters.map Prod.snd
  settled : ∀ p ∈ t.preconditions, ∃ v, p.condition.eval (t.context table env arguments) = pure v

def Free : Prop := ∀ p ∈ t.preconditions, p.Holds (t.context table env arguments)

def BlockedBy (p : Precondition) : Prop :=
  Precondition.FirstToFail (t.context table env arguments) t.preconditions p

variable {table env arguments t}

theorem Decided.free_or_blocked (decided : t.Decided table env arguments) :
    t.Free table env arguments ∨ ∃ p, t.BlockedBy table env arguments p :=
  Precondition.allHold_or_firstToFail _ t.preconditions decided.settled

theorem BlockedBy.not_free {p : Precondition} (blocked : t.BlockedBy table env arguments p) :
    ¬ t.Free table env arguments := by
  intro free
  obtain ⟨before, after, split, -, fails⟩ := blocked
  have listed : p ∈ t.preconditions := by simp [split]
  exact Precondition.holds_not_fails _ p (free p listed) fails

end Transition

namespace Machine

variable (m : Machine) (table : BuiltinTable) (env : Environment) (arguments : List Value)

def executeWith (entry : Nat × Transition) :
    Draws (Except MachineError Firing × Machine × Environment) :=
  m.execute table env (entry.2.context table env arguments).locals entry.1 entry.2

def refusal (t : Transition) (p : Precondition) :
    Except MachineError Firing × Machine × Environment :=
  (.error (.preconditionFailed p.error t.position.line m.stateName), m, env)

variable {m table env arguments}

theorem attempt_free (entry : Nat × Transition) (rest : List (Nat × Transition))
    (failure : Option (String × Nat)) (decided : entry.2.Decided table env arguments)
    (free : entry.2.Free table env arguments) :
    m.attempt table env arguments (entry :: rest) failure =
      m.executeWith table env arguments entry := by
  obtain ⟨place, t⟩ := entry
  have bound := (Transition.bindArguments_ok_iff t arguments _).mpr ⟨decided.fits, rfl⟩
  have passes := Precondition.firstFailure_allHold _ t.preconditions free
  rw [Transition.context] at passes
  simp only [attempt, bound, passes, ExceptT.run_pure, pure_bind]
  rfl

theorem attempt_blocked (entry : Nat × Transition) (rest : List (Nat × Transition))
    (failure : Option (String × Nat)) (p : Precondition)
    (decided : entry.2.Decided table env arguments)
    (blocked : entry.2.BlockedBy table env arguments p) :
    m.attempt table env arguments (entry :: rest) failure =
      m.attempt table env arguments rest (failure.or (some (p.error, entry.2.position.line))) := by
  obtain ⟨place, t⟩ := entry
  have bound := (Transition.bindArguments_ok_iff t arguments _).mpr ⟨decided.fits, rfl⟩
  have fails := Precondition.firstFailure_firstToFail _ t.preconditions p blocked
  rw [Transition.context] at fails
  simp only [attempt, bound, fails, ExceptT.run_pure, pure_bind]

theorem attempt_executes (order : List (Nat × Transition)) (failure : Option (String × Nat))
    (decided : ∀ entry ∈ order, entry.2.Decided table env arguments)
    (chance : ∃ entry ∈ order, entry.2.Free table env arguments) :
    ∃ entry ∈ order, entry.2.Free table env arguments ∧
      m.attempt table env arguments order failure = m.executeWith table env arguments entry := by
  induction order generalizing failure with
  | nil => simp at chance
  | cons first rest ih =>
      obtain ⟨here, later⟩ := List.forall_mem_cons.mp decided
      rcases here.free_or_blocked with free | ⟨p, blocked⟩
      · exact ⟨first, List.mem_cons_self, free, attempt_free first rest failure here free⟩
      · have others : ∃ entry ∈ rest, entry.2.Free table env arguments := by
          obtain ⟨entry, member, free⟩ := chance
          rcases List.mem_cons.mp member with rfl | inRest
          · exact absurd free blocked.not_free
          · exact ⟨entry, inRest, free⟩
        obtain ⟨entry, member, free, executed⟩ := ih _ later others
        rw [attempt_blocked first rest failure p here blocked]
        exact ⟨entry, List.mem_cons_of_mem first member, free, executed⟩

/-- Once a precondition is to blame, it stays the one where no transition is free. -/
theorem attempt_refuses (order : List (Nat × Transition)) (t : Transition) (p : Precondition)
    (decided : ∀ entry ∈ order, entry.2.Decided table env arguments)
    (noChance : ∀ entry ∈ order, ¬ entry.2.Free table env arguments) :
    m.attempt table env arguments order (some (p.error, t.position.line)) =
      pure (m.refusal env t p) := by
  induction order with
  | nil => rfl
  | cons first rest ih =>
      obtain ⟨here, later⟩ := List.forall_mem_cons.mp decided
      obtain ⟨notFree, othersNot⟩ := List.forall_mem_cons.mp noChance
      obtain ⟨q, blocked⟩ := here.free_or_blocked.resolve_left notFree
      rw [attempt_blocked first rest _ q here blocked, Option.some_or, ih later othersNot]

theorem attempt_blames (first : Nat × Transition) (rest : List (Nat × Transition))
    (p : Precondition) (decided : ∀ entry ∈ first :: rest, entry.2.Decided table env arguments)
    (noChance : ∀ entry ∈ first :: rest, ¬ entry.2.Free table env arguments)
    (blocked : first.2.BlockedBy table env arguments p) :
    m.attempt table env arguments (first :: rest) none = pure (m.refusal env first.2 p) := by
  obtain ⟨here, later⟩ := List.forall_mem_cons.mp decided
  obtain ⟨-, othersNot⟩ := List.forall_mem_cons.mp noChance
  rw [attempt_blocked first rest none p here blocked, Option.none_or]
  exact attempt_refuses rest first.2 p later othersNot

theorem executeWith_unrefused (entry : Nat × Transition) (result : Except MachineError Firing)
    (after : Machine) (data : Environment)
    (branch : Draws.Branch (m.executeWith table env arguments entry) (result, after, data))
    (error : String) (line : Nat) (state : String) :
    result ≠ .error (.preconditionFailed error line state) := by
  rintro rfl
  obtain ⟨⟨ending, middle, output⟩, -, continued⟩ := (Draws.branch_bind_iff _ _ _).mp branch
  cases ending with
  | finished | raised | faulted => cases (Draws.branch_pure_triple continued).1

section Firing

variable (trigger : Trigger)

theorem fire_shuffles (candidates : m.candidates trigger ≠ []) :
    m.fire table env trigger arguments =
      Draws.shuffle (m.candidates trigger) >>= fun order =>
        m.attempt table env arguments order none := by
  unfold fire
  cases found : m.candidates trigger with
  | nil => exact absurd found candidates
  | cons first rest => rfl

theorem fire_ordered (candidates : m.candidates trigger ≠ []) {σ : Type} (source : RandomSource σ)
    (s : σ) : ∃ order left, order.Perm (m.candidates trigger) ∧
      (m.fire table env trigger arguments).run source s =
        (m.attempt table env arguments order none).run source left := by
  rw [fire_shuffles trigger candidates, Draws.run_bind]
  exact ⟨_, _, (Draws.shuffle_branch_iff _ _).mp (Draws.run_branch source _ s), rfl⟩

theorem fire_first (entry : Nat × Transition) (member : entry ∈ m.candidates trigger) :
    ∃ rest answers, (entry :: rest).Perm (m.candidates trigger) ∧ ∀ more,
      (m.fire table env trigger arguments).run Draws.listedAnswers (answers ++ more) =
        (m.attempt table env arguments (entry :: rest) none).run Draws.listedAnswers more := by
  obtain ⟨before, behind, split⟩ := List.append_of_mem member
  have order : (entry :: (before ++ behind)).Perm (m.candidates trigger) := by
    rw [split]
    exact List.perm_middle.symm
  obtain ⟨answers, shuffled⟩ :=
    Draws.branch_answers _ _ ((Draws.shuffle_branch_iff _ _).mpr order)
  refine ⟨_, answers, order, fun more => ?_⟩
  rw [fire_shuffles trigger (List.ne_nil_of_mem member), Draws.run_bind, shuffled more]

theorem fire_executes
    (decided : ∀ entry ∈ m.candidates trigger, entry.2.Decided table env arguments)
    (chance : ∃ entry ∈ m.candidates trigger, entry.2.Free table env arguments) :
    (∀ {σ : Type} (source : RandomSource σ) (s : σ),
      ∃ entry ∈ m.candidates trigger, entry.2.Free table env arguments ∧ ∃ left,
        (m.fire table env trigger arguments).run source s =
          (m.executeWith table env arguments entry).run source left) ∧
    ∀ entry ∈ m.candidates trigger, entry.2.Free table env arguments → ∃ answers, ∀ more,
      (m.fire table env trigger arguments).run Draws.listedAnswers (answers ++ more) =
        (m.executeWith table env arguments entry).run Draws.listedAnswers more := by
  constructor
  · intro σ source s
    have candidates : m.candidates trigger ≠ [] := List.ne_nil_of_mem chance.choose_spec.1
    obtain ⟨order, left, permuted, fired⟩ := fire_ordered trigger candidates source s
    obtain ⟨entry, member, free, executed⟩ := attempt_executes order none
      (fun entry member => decided entry (permuted.mem_iff.mp member))
      (chance.imp fun entry here => here.imp_left permuted.mem_iff.mpr)
    exact ⟨entry, permuted.mem_iff.mp member, free, left, executed ▸ fired⟩
  · intro entry member free
    obtain ⟨rest, answers, -, fired⟩ := fire_first trigger entry member
    refine ⟨answers, fun more => ?_⟩
    rw [fired more, attempt_free entry rest none (decided entry member) free]

theorem fire_refuses (candidates : m.candidates trigger ≠ [])
    (decided : ∀ entry ∈ m.candidates trigger, entry.2.Decided table env arguments)
    (noChance : ∀ entry ∈ m.candidates trigger, ¬ entry.2.Free table env arguments) :
    (∀ {σ : Type} (source : RandomSource σ) (s : σ),
      ∃ entry ∈ m.candidates trigger, ∃ p, entry.2.BlockedBy table env arguments p ∧
        ((m.fire table env trigger arguments).run source s).1 = m.refusal env entry.2 p) ∧
    ∀ entry ∈ m.candidates trigger, ∃ p, entry.2.BlockedBy table env arguments p ∧ ∃ answers,
      ((m.fire table env trigger arguments).run Draws.listedAnswers answers).1 =
        m.refusal env entry.2 p := by
  have blames (entry : Nat × Transition) (rest : List (Nat × Transition))
      (permuted : (entry :: rest).Perm (m.candidates trigger)) :
      ∃ p, entry.2.BlockedBy table env arguments p ∧
        m.attempt table env arguments (entry :: rest) none = pure (m.refusal env entry.2 p) := by
    have here := permuted.mem_iff.mp List.mem_cons_self
    obtain ⟨p, blocked⟩ := (decided entry here).free_or_blocked.resolve_left (noChance entry here)
    exact ⟨p, blocked, attempt_blames entry rest p
      (fun other member => decided other (permuted.mem_iff.mp member))
      (fun other member => noChance other (permuted.mem_iff.mp member)) blocked⟩
  constructor
  · intro σ source s
    obtain ⟨order, left, permuted, fired⟩ := fire_ordered trigger candidates source s
    cases order with
    | nil => exact absurd permuted.symm.eq_nil candidates
    | cons entry rest =>
        obtain ⟨p, blocked, refused⟩ := blames entry rest permuted
        exact ⟨entry, permuted.mem_iff.mp List.mem_cons_self, p, blocked,
          by rw [fired, refused]; rfl⟩
  · intro entry member
    obtain ⟨rest, answers, permuted, fired⟩ := fire_first trigger entry member
    obtain ⟨p, blocked, refused⟩ := blames entry rest permuted
    exact ⟨p, blocked, answers ++ [], by rw [fired, refused]; rfl⟩

/-- What firing a trigger comes to when it has candidates, which the arguments fit and whose
preconditions come to values. Where some are free, one of these is executed, and no
precondition is blamed; otherwise nothing changes, and a candidate is blamed that fails. With
the right answers each of them is the one. -/
theorem fire_selects (candidates : m.candidates trigger ≠ [])
    (decided : ∀ entry ∈ m.candidates trigger, entry.2.Decided table env arguments) :
    ((∃ entry ∈ m.candidates trigger, entry.2.Free table env arguments) →
      (∀ {σ : Type} (source : RandomSource σ) (s : σ),
        (∃ entry ∈ m.candidates trigger, entry.2.Free table env arguments ∧ ∃ left,
          (m.fire table env trigger arguments).run source s =
            (m.executeWith table env arguments entry).run source left) ∧
        ∀ error line state, ((m.fire table env trigger arguments).run source s).1.1 ≠
          .error (.preconditionFailed error line state)) ∧
      ∀ entry ∈ m.candidates trigger, entry.2.Free table env arguments → ∃ answers, ∀ more,
        (m.fire table env trigger arguments).run Draws.listedAnswers (answers ++ more) =
          (m.executeWith table env arguments entry).run Draws.listedAnswers more) ∧
    ((∀ entry ∈ m.candidates trigger, ¬ entry.2.Free table env arguments) →
      (∀ {σ : Type} (source : RandomSource σ) (s : σ),
        ∃ entry ∈ m.candidates trigger, ∃ p, entry.2.BlockedBy table env arguments p ∧
          ((m.fire table env trigger arguments).run source s).1 =
            (.error (.preconditionFailed p.error entry.2.position.line m.stateName), m, env)) ∧
      ∀ entry ∈ m.candidates trigger, ∃ p, entry.2.BlockedBy table env arguments p ∧ ∃ answers,
        ((m.fire table env trigger arguments).run Draws.listedAnswers answers).1 =
          (.error (.preconditionFailed p.error entry.2.position.line m.stateName), m, env)) := by
  constructor
  · intro chance
    obtain ⟨executes, each⟩ := fire_executes trigger decided chance
    refine ⟨fun source s => ⟨executes source s, ?_⟩, each⟩
    obtain ⟨entry, -, -, left, fired⟩ := executes source s
    rw [fired]
    exact executeWith_unrefused entry _ _ _ (Draws.run_branch source _ left)
  · exact fire_refuses trigger candidates decided

end Firing

/-! A door that opens to either side when it is pushed, and does not give way to a pull. -/

def door : Machine where
  current := 0
  definition :=
    { path := "/door"
      names := []
      interfaces := ["test.Door"]
      data := []
      states := ["shut", "inside", "outside"]
      transitions :=
        [⟨0, 1, .method "test.Door" "Push", [], [⟨"test.Never", .literal (.bool true)⟩],
            [.reply (.tuple [])], ⟨4, 3⟩⟩,
          ⟨0, 0, .method "test.Door" "Push", [], [⟨"test.Stuck", .literal (.bool false)⟩],
            [.reply (.tuple [])], ⟨5, 3⟩⟩,
          ⟨0, 2, .method "test.Door" "Push", [], [], [.reply (.tuple [])], ⟨6, 3⟩⟩,
          ⟨0, 1, .method "test.Door" "Pull", [], [⟨"test.Locked", .literal (.bool false)⟩],
            [.reply (.tuple [])], ⟨7, 3⟩⟩,
          ⟨0, 2, .method "test.Door" "Pull", [],
            [⟨"test.Never", .literal (.bool true)⟩, ⟨"test.Jammed", .literal (.bool false)⟩],
            [.reply (.tuple [])], ⟨8, 3⟩⟩]
      position := ⟨1, 1⟩ }

def door.fired (member : String) (answers : List Nat) :
    Except MachineError Firing × Machine × Environment :=
  ((door.fire Builtin.standard [] (.method "test.Door" member) []).run
    Draws.listedAnswers answers).1

theorem door_decided (member : String) :
    ∀ entry ∈ door.candidates (.method "test.Door" member),
      entry.2.Decided Builtin.standard [] [] := by
  rintro ⟨place, t⟩ candidate
  obtain ⟨placed, -, -⟩ := (mem_candidates_iff door _ place t).mp candidate
  have listed : t ∈ door.definition.transitions := List.mem_of_getElem? placed
  have literals : ∀ t ∈ door.definition.transitions, t.parameters = [] ∧
      ∀ p ∈ t.preconditions, ∃ v, p.condition = .literal v := by
    simp [door]
  obtain ⟨parameters, constant⟩ := literals t listed
  constructor
  · rw [parameters]
    rfl
  · intro p precondition
    obtain ⟨v, same⟩ := constant p precondition
    exact ⟨v, by rw [same, Expr.eval]⟩

theorem door_withstands :
    ∀ entry ∈ door.candidates (.method "test.Door" "Pull"),
      ¬ entry.2.Free Builtin.standard [] [] := by
  rintro ⟨place, t⟩ candidate free
  obtain ⟨placed, -, pulls⟩ := (mem_candidates_iff door _ place t).mp candidate
  have listed : t ∈ door.definition.transitions := List.mem_of_getElem? placed
  have unmet : ∀ t ∈ door.definition.transitions, t.trigger = .method "test.Door" "Pull" →
      ∃ p ∈ t.preconditions, p.condition = .literal (.bool false) := by
    simp [door]
  obtain ⟨p, precondition, same⟩ := unmet t listed pulls
  have holds := free p precondition
  rw [Precondition.Holds, same, Expr.eval] at holds
  cases Eval.pure_inj _ _ holds

theorem door_selects :
    (∀ side ∈ [1, 2], ∃ answers, (door.fired "Push" answers).2.1.current = side) ∧
    ∀ blame ∈ [("test.Locked", 7), ("test.Jammed", 8)], ∃ answers, door.fired "Pull" answers =
      (.error (.preconditionFailed blame.1 blame.2 "shut"), door, []) := by
  have pushed := (fire_selects (.method "test.Door" "Push") (by decide) (door_decided "Push")).1
  have pulled := (fire_selects (.method "test.Door" "Pull") (by decide) (door_decided "Pull")).2
  constructor
  · have inward :
        (0, door.definition.transitions[0]) ∈ door.candidates (.method "test.Door" "Push") :=
      (mem_candidates_iff door _ 0 _).mpr ⟨rfl, rfl, rfl⟩
    have outward :
        (2, door.definition.transitions[2]) ∈ door.candidates (.method "test.Door" "Push") :=
      (mem_candidates_iff door _ 2 _).mpr ⟨rfl, rfl, rfl⟩
    have inwardFree : door.definition.transitions[0].Free Builtin.standard [] [] := by
      simp [door, Transition.Free, Precondition.Holds, Expr.eval]
    have outwardFree : door.definition.transitions[2].Free Builtin.standard [] [] := by
      simp [door, Transition.Free]
    obtain ⟨-, each⟩ := pushed ⟨_, inward, inwardFree⟩
    obtain ⟨answers, inside⟩ := each _ inward inwardFree
    obtain ⟨others, outside⟩ := each _ outward outwardFree
    simp only [List.forall_mem_cons, List.not_mem_nil, false_implies, implies_true, and_true]
    constructor
    · exact ⟨answers ++ [], by rw [door.fired, inside []]; rfl⟩
    · exact ⟨others ++ [], by rw [door.fired, outside []]; rfl⟩
  · have locked :
        (3, door.definition.transitions[3]) ∈ door.candidates (.method "test.Door" "Pull") :=
      (mem_candidates_iff door _ 3 _).mpr ⟨rfl, rfl, rfl⟩
    have jammed :
        (4, door.definition.transitions[4]) ∈ door.candidates (.method "test.Door" "Pull") :=
      (mem_candidates_iff door _ 4 _).mpr ⟨rfl, rfl, rfl⟩
    obtain ⟨-, each⟩ := pulled door_withstands
    obtain ⟨p, blocked, answers, refused⟩ := each _ locked
    obtain ⟨q, blockedToo, others, refusedToo⟩ := each _ jammed
    have lock := Precondition.firstFailure_firstToFail _ _ p blocked
    have jam := Precondition.firstFailure_firstToFail _ _ q blockedToo
    have locks : p.error = "test.Locked" := (Option.some.inj (Eval.pure_inj _ _ lock)).symm
    have jams : q.error = "test.Jammed" := (Option.some.inj (Eval.pure_inj _ _ jam)).symm
    simp only [List.forall_mem_cons, List.not_mem_nil, false_implies, implies_true, and_true]
    constructor
    · exact ⟨answers, by rw [door.fired, refused, locks]; rfl⟩
    · exact ⟨others, by rw [door.fired, refusedToo, jams]; rfl⟩

end Machine

end SimBus
