import SimBus.Environment
/-!
What assignments leave alone. They change values only, so the names, the types
and the initial values of the variables stay, place by place. Restoring by
place is therefore enough to take any assignments back.
-/

namespace SimBus

/-- What no assignment changes about a variable. -/
def Binding.frame (b : Binding) : String × Ty × Value := (b.name, b.ty, b.initial)

namespace Environment

def frame (env : Environment) : List (String × Ty × Value) := env.map Binding.frame

theorem binding?_member (env : Environment) (name : String) (b : Binding)
    (found : env.binding? name = some b) : b ∈ env ∧ b.name = name := by
  refine ⟨List.mem_of_find?_eq_some found, ?_⟩
  simpa using List.find?_some found

theorem assign_ok_iff (env after : Environment) (name : String) (value : Value) :
    env.assign name value = .ok after ↔ ∃ b, env.binding? name = some b ∧ value.ty = b.ty ∧
      after = env.put { b with value := value } := by
  unfold assign
  cases found : env.binding? name with
  | none => simp
  | some b =>
      by_cases fits : value.ty = b.ty
      · simp [check, fits, bind, Except.bind, pure, Except.pure, eq_comm]
      · simp [check, fits, bind, Except.bind]

theorem declare_ok_iff (env after : Environment) (name : String) (ty : Ty) (value : Value) :
    env.declare name ty value = .ok after ↔
      value.ty = ty ∧ after = env.put ⟨name, ty, value, value⟩ := by
  by_cases fits : value.ty = ty
  · simp [declare, check, fits, bind, Except.bind, pure, Except.pure, eq_comm]
  · simp [declare, check, fits, bind, Except.bind]

theorem put_forall (holds : Binding → Prop) (binding : Binding) (env : Environment)
    (before : ∀ b ∈ env, holds b) (own : holds binding) : ∀ b ∈ env.put binding, holds b := by
  induction env with
  | nil =>
      intro b member
      exact List.mem_singleton.mp member ▸ own
  | cons first rest ih =>
      have others : ∀ b ∈ rest, holds b := fun b member => before b (List.mem_cons_of_mem _ member)
      unfold put
      split
      · exact List.forall_mem_cons.mpr ⟨own, others⟩
      · exact List.forall_mem_cons.mpr ⟨before first List.mem_cons_self, ih others⟩

theorem binding?_put (env : Environment) (b : Binding) (name : String) :
    (env.put b).binding? name = if b.name = name then some b else env.binding? name := by
  induction env with
  | nil => by_cases same : b.name = name <;> simp [put, binding?, same]
  | cons first rest ih =>
      simp only [binding?] at ih ⊢
      by_cases replaced : first.name = b.name
      · by_cases same : b.name = name <;> simp [put, replaced, same]
      · by_cases same : first.name = name
        · have other : b.name ≠ name := fun own => replaced (same.trans own.symm)
          simp [put, same, other, Ne.symm other]
        · simp [put, replaced, same, ih]

theorem put_frame (env : Environment) (b old : Binding)
    (found : env.binding? b.name = some old) (same : b.frame = old.frame) :
    (env.put b).frame = env.frame := by
  induction env with
  | nil => cases found
  | cons other rest ih =>
      by_cases here : other.name = b.name
      · have isOther : other = old := by
          simpa [binding?, here] using found
        subst isOther
        simp [put, here, frame, same]
      · have later : binding? rest b.name = some old := by
          simpa [binding?, here] using found
        have kept := ih later
        simp only [frame] at kept
        simp [put, here, frame, kept]

theorem assign_frame (env after : Environment) (name : String) (value : Value)
    (assigned : env.assign name value = .ok after) : after.frame = env.frame := by
  obtain ⟨b, found, -, rfl⟩ := (assign_ok_iff env after name value).mp assigned
  have named : b.name = name := (binding?_member env name b found).2
  exact put_frame env { b with value := value } b (by simpa [named] using found) rfl

theorem restore_snapshot (env after : Environment) (same : after.frame = env.frame) :
    after.restore env.snapshot = env := by
  induction env generalizing after with
  | nil =>
      have empty : after = [] := by simpa [frame] using same
      simp [empty, restore, snapshot]
  | cons b rest ih =>
      cases after with
      | nil => simp [frame] at same
      | cons b' rest' =>
          simp only [frame, List.map_cons, List.cons.injEq] at same
          obtain ⟨head, tail⟩ := same
          simp only [Binding.frame, Prod.mk.injEq] at head
          obtain ⟨sameName, sameTy, sameInitial⟩ := head
          have restored := ih rest' tail
          simp only [snapshot] at restored
          simp only [snapshot, List.map_cons, restore, restored]
          congr 1
          cases b
          cases b'
          simp_all

end Environment

end SimBus
