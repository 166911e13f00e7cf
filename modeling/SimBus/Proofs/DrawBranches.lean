import Mathlib.Data.List.Perm.Basic
import SimBus.Builtin
import SimBus.Random.Source
/-!
What a computation can come to. Every way of answering its questions leads to
one result, a branch. The branches of a sequence are put together from those of
its parts, and the branches are exactly what random sources make of it.
-/

namespace SimBus.Draws

open scoped List

variable {α β ε : Type}

theorem bind_done (m : Draws α) : m.bind .done = m := by
  induction m with
  | done a => rfl
  | index width last next ih => exact congrArg (Draws.index width last) (funext ih)
  | word next ih => exact congrArg Draws.word (funext ih)

theorem bind_assoc {γ : Type} (m : Draws α) (f : α → Draws β) (g : β → Draws γ) :
    (m.bind f).bind g = m.bind fun a => (f a).bind g := by
  induction m with
  | done a => rfl
  | index width last next ih => exact congrArg (Draws.index width last) (funext ih)
  | word next ih => exact congrArg Draws.word (funext ih)

instance : LawfulMonad Draws := LawfulMonad.mk' Draws bind_done (fun _ _ => rfl) bind_assoc

/-- A result that the computation has for some answers to its questions. -/
inductive Branch : Draws α → α → Prop where
  | done (result : α) : Branch (.done result) result
  | index {width : DrawWidth} {last : Nat} {next : Fin (last + 1) → Draws α} {result : α}
      (i : Fin (last + 1)) : Branch (next i) result → Branch (.index width last next) result
  | word {next : UInt64 → Draws α} {result : α}
      (w : UInt64) : Branch (next w) result → Branch (.word next) result

@[simp] theorem branch_pure_iff (a result : α) :
    Branch (pure a : Draws α) result ↔ result = a := by
  constructor
  · intro branch
    cases branch
    rfl
  · rintro rfl
    exact .done result

theorem branch_pure_pair {a a' : α} {b b' : β} (branch : Branch (pure (a, b)) (a', b')) :
    a' = a ∧ b' = b := by
  rw [branch_pure_iff] at branch
  exact Prod.mk.inj branch

theorem branch_pure_triple {γ : Type} {a a' : α} {b b' : β} {c c' : γ}
    (branch : Branch (pure (a, b, c)) (a', b', c')) : a' = a ∧ b' = b ∧ c' = c := by
  obtain ⟨sameFirst, rest⟩ := branch_pure_pair branch
  exact ⟨sameFirst, Prod.mk.inj rest⟩

theorem branch_bind_iff (m : Draws α) (f : α → Draws β) (result : β) :
    Branch (m >>= f) result ↔ ∃ a, Branch m a ∧ Branch (f a) result := by
  constructor
  · intro branch
    induction m with
    | done a => exact ⟨a, .done a, branch⟩
    | index width last next ih =>
        cases branch with
        | index i branch =>
            obtain ⟨a, first, second⟩ := ih i branch
            exact ⟨a, .index i first, second⟩
    | word next ih =>
        cases branch with
        | word w branch =>
            obtain ⟨a, first, second⟩ := ih w branch
            exact ⟨a, .word w first, second⟩
  · rintro ⟨a, first, second⟩
    induction first with
    | done a => exact second
    | index i _ ih => exact .index i (ih second)
    | word w _ ih => exact .word w (ih second)

theorem branch_exists (m : Draws α) : ∃ result, Branch m result := by
  induction m with
  | done a => exact ⟨a, .done a⟩
  | index width last next ih =>
      obtain ⟨result, branch⟩ := ih 0
      exact ⟨result, .index 0 branch⟩
  | word next ih =>
      obtain ⟨result, branch⟩ := ih 0
      exact ⟨result, .word 0 branch⟩

theorem run_branch {σ : Type} (source : RandomSource σ) (m : Draws α) (s : σ) :
    Branch m (m.run source s).1 := by
  induction m generalizing s with
  | done a => exact .done a
  | index width last next ih => exact .index _ (ih _ _)
  | word next ih => exact .word _ (ih _ _)

/-- Answers from a list of numbers, each cut down to the range that is asked. -/
def listedAnswers : RandomSource (List Nat) where
  index _ last answers := (Fin.ofNat (last + 1) (answers.headD 0), answers.tail)
  word answers := (UInt64.ofNat (answers.headD 0), answers.tail)

theorem run_bind {σ : Type} (source : RandomSource σ) (m : Draws α) (f : α → Draws β) (s : σ) :
    (m >>= f).run source s = (f (m.run source s).1).run source (m.run source s).2 := by
  induction m generalizing s with
  | done a => rfl
  | index width last next ih => exact ih _ _
  | word next ih => exact ih _ _

theorem branch_answers (m : Draws α) (result : α) (branch : Branch m result) :
    ∃ answers, ∀ more, m.run listedAnswers (answers ++ more) = (result, more) := by
  induction branch with
  | done a => exact ⟨[], fun _ => rfl⟩
  | @index width last next result i _ ih =>
      obtain ⟨answers, reached⟩ := ih
      refine ⟨i.val :: answers, fun more => ?_⟩
      have picked : Fin.ofNat (last + 1) i.val = i := Fin.ext (Nat.mod_eq_of_lt i.isLt)
      simpa [run, listedAnswers, picked] using reached more
  | word w _ ih =>
      obtain ⟨answers, reached⟩ := ih
      exact ⟨w.toNat :: answers, fun more => by simpa [run, listedAnswers] using reached more⟩

/-- Every branch is the outcome for some source, so that a statement about all
branches is no stronger than one about all sources. -/
theorem branch_iff_run (m : Draws α) (result : α) :
    Branch m result ↔ ∃ answers, (m.run listedAnswers answers).1 = result := by
  constructor
  · intro branch
    obtain ⟨answers, reached⟩ := branch_answers m result branch
    exact ⟨answers ++ [], congrArg Prod.fst (reached [])⟩
  · rintro ⟨answers, rfl⟩
    exact run_branch listedAnswers m answers

/-! Computations that may fail. -/

@[simp] theorem branch_run_pure_iff (a : α) (result : Except ε α) :
    Branch (pure a : ExceptT ε Draws α).run result ↔ result = .ok a :=
  branch_pure_iff (.ok a) result

@[simp] theorem branch_run_throw_iff (e : ε) (result : Except ε α) :
    Branch (throw e : ExceptT ε Draws α).run result ↔ result = .error e :=
  branch_pure_iff (.error e) result

theorem branch_run_bind_ok_iff (m : ExceptT ε Draws α) (f : α → ExceptT ε Draws β) (b : β) :
    Branch (m >>= f).run (.ok b) ↔ ∃ a, Branch m.run (.ok a) ∧ Branch (f a).run (.ok b) := by
  rw [ExceptT.run_bind, branch_bind_iff]
  constructor
  · rintro ⟨result, first, second⟩
    cases result with
    | ok a => exact ⟨a, first, second⟩
    | error e => simp at second
  · rintro ⟨a, first, second⟩
    exact ⟨.ok a, first, second⟩

theorem branch_run_bind_error_iff (m : ExceptT ε Draws α) (f : α → ExceptT ε Draws β) (e : ε) :
    Branch (m >>= f).run (.error e) ↔
      Branch m.run (.error e) ∨ ∃ a, Branch m.run (.ok a) ∧ Branch (f a).run (.error e) := by
  rw [ExceptT.run_bind, branch_bind_iff]
  constructor
  · rintro ⟨result, first, second⟩
    cases result with
    | ok a => exact .inr ⟨a, first, second⟩
    | error e' =>
        simp only [branch_pure_iff, Except.error.injEq] at second
        subst second
        exact .inl first
  · rintro (first | ⟨a, first, second⟩)
    · exact ⟨.error e, first, by simp⟩
    · exact ⟨.ok a, first, second⟩

theorem branch_run_lift_iff (m : Draws α) (result : Except ε α) :
    Branch (ExceptT.lift m : ExceptT ε Draws α).run result ↔
      ∃ a, Branch m a ∧ result = .ok a := by
  change Branch (m >>= fun a => (pure (.ok a) : Draws (Except ε α))) result ↔ _
  simp only [branch_bind_iff, branch_pure_iff]

/-! Shuffling. -/

theorem swapLast_perm (items : List α) (i : Nat) (picked last : α)
    (pickedAt : items[i]? = some picked) (lastAt : items.getLast? = some last) :
    ((items.set i last).dropLast ++ [picked]).Perm items := by
  obtain ⟨front, rfl⟩ := List.getLast?_eq_some_iff.mp lastAt
  -- The picked item may be the last one itself, and then nothing moves.
  by_cases inFront : i < front.length
  · have atFront : front[i] = picked := by
      simpa [List.getElem?_append_left, inFront] using pickedAt
    have swapped : (front.set i last).Perm (last :: front.eraseIdx i) :=
      List.set_perm_cons_eraseIdx inFront last
    have restored : (picked :: front.eraseIdx i).Perm front :=
      atFront ▸ List.getElem_cons_eraseIdx_perm inFront
    calc ((front ++ [last]).set i last).dropLast ++ [picked]
        = front.set i last ++ [picked] := by simp [List.set_append_left, inFront]
      _ ~ last :: front.eraseIdx i ++ [picked] := swapped.append_right [picked]
      _ ~ last :: picked :: front.eraseIdx i := (List.perm_append_singleton _ _).cons last
      _ ~ last :: front := restored.cons last
      _ ~ front ++ [last] := (List.perm_append_singleton last front).symm
  · have atEnd : i = front.length := by
      have bound := (List.getElem?_eq_some_iff.mp pickedAt).1
      simp only [List.length_append, List.length_singleton] at bound
      omega
    subst atEnd
    have same : picked = last := by simpa using pickedAt.symm
    subst same
    simp

theorem shuffleFirst_perm (count : Nat) (items shuffled : List α)
    (branch : Branch (shuffleFirst count items) shuffled) : shuffled.Perm items := by
  induction count generalizing items shuffled with
  | zero =>
      have same : shuffled = items := by simpa [shuffleFirst] using branch
      exact same ▸ List.Perm.refl items
  | succ count ih =>
      cases count with
      | zero =>
          have same : shuffled = items := by simpa [shuffleFirst] using branch
          exact same ▸ List.Perm.refl items
      | succ count =>
          obtain ⟨i, -, rest⟩ := (branch_bind_iff _ _ _).mp branch
          split at rest
          · next picked last pickedAt lastAt =>
              obtain ⟨others, shuffledOthers, final⟩ := (branch_bind_iff _ _ _).mp rest
              rw [branch_pure_iff] at final
              subst final
              exact ((ih _ others shuffledOthers).append_right [picked]).trans
                (swapLast_perm items i picked last pickedAt lastAt)
          · rw [branch_pure_iff] at rest
            exact rest ▸ List.Perm.refl items

theorem shuffleFirst_branch (count : Nat) (items shuffled : List α)
    (counted : items.length = count) (permuted : shuffled.Perm items) :
    Branch (shuffleFirst count items) shuffled := by
  induction count generalizing items shuffled with
  | zero =>
      obtain rfl := List.eq_nil_of_length_eq_zero counted
      obtain rfl := permuted.eq_nil
      exact .done []
  | succ count ih =>
      cases count with
      | zero =>
          obtain ⟨item, rfl⟩ := List.length_eq_one_iff.mp counted
          obtain rfl := List.perm_singleton.mp permuted
          exact .done [item]
      | succ count =>
          have nonempty : shuffled ≠ [] := by
            rintro rfl
            simp [permuted.symm.eq_nil] at counted
          obtain ⟨others, picked, rfl⟩ := (List.eq_nil_or_concat' shuffled).resolve_left nonempty
          have among : picked ∈ items := permuted.mem_iff.mp (by simp)
          obtain ⟨i, inRange, pickedAt⟩ := List.getElem_of_mem among
          obtain ⟨last, lastAt⟩ : ∃ last, items.getLast? = some last :=
            Option.isSome_iff_exists.mp (List.getLast?_isSome.mpr (List.ne_nil_of_mem among))
          have pickedHere : items[i]? = some picked := pickedAt ▸ List.getElem?_eq_getElem inRange
          have left : others.Perm (items.set i last).dropLast :=
            (List.perm_append_right_iff [picked]).mp
              (permuted.trans (swapLast_perm items i picked last pickedHere lastAt).symm)
          have shuffledOthers := ih _ others (by simp [counted]) left
          refine (branch_bind_iff _ _ _).mpr ⟨⟨i, counted ▸ inRange⟩, .index _ (.done _), ?_⟩
          simp only [pickedHere, lastAt]
          exact (branch_bind_iff _ _ _).mpr ⟨others, shuffledOthers, .done _⟩

theorem shuffle_branch_iff (items shuffled : List α) :
    Branch (shuffle items) shuffled ↔ shuffled.Perm items :=
  ⟨shuffleFirst_perm items.length items shuffled,
    shuffleFirst_branch items.length items shuffled rfl⟩

end SimBus.Draws

/-! An evaluation that is over. -/

namespace SimBus.Eval

variable {α : Type}

theorem pure_inj (a b : α) (same : (pure a : Eval α) = pure b) : a = b :=
  Except.ok.inj (Draws.done.inj same)

theorem pure_ne_throw (a : α) (e : EvalError) : (pure a : Eval α) ≠ throw e := by
  intro same
  cases Draws.done.inj same

end SimBus.Eval
