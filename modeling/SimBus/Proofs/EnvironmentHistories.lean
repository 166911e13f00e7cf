import Mathlib.Data.List.Induction
import SimBus.Proofs.DataFrame
/-!
What an environment can come to. Its operations may follow one another in any order, and each
may fail. The variables stand in the order in which they were first declared, and a reset
always gives back values of the declared types. The current values have these types as well,
unless a snapshot is restored that is older than a change of the type.
-/

namespace SimBus.Environment

def names (env : Environment) : List String := env.map Binding.name

/-- What can be done to an environment. Snapshots are numbered as they are taken. -/
inductive Operation where
  | declare (name : String) (ty : Ty) (value : Value)
  | assign (name : String) (value : Value)
  | lookup (name : String)
  | reset
  | snapshot
  | restore (taken : Nat)

/-- An environment with the snapshots that were taken of it. -/
structure History where
  env : Environment
  snapshots : List (List Value)

namespace History

def start : History := ⟨Environment.empty, []⟩

/-- An operation that fails leaves the environment as it was. -/
def perform (h : History) : Operation → History
  | .declare name ty value => { h with env := (h.env.declare name ty value).toOption.getD h.env }
  | .assign name value => { h with env := (h.env.assign name value).toOption.getD h.env }
  | .lookup _ => h
  | .reset => { h with env := h.env.reset }
  | .snapshot => { h with snapshots := h.snapshots ++ [h.env.snapshot] }
  | .restore taken => { h with env := (h.snapshots[taken]?.map h.env.restore).getD h.env }

def after (operations : List Operation) : History := operations.foldl perform start

theorem after_snoc (operations : List Operation) (last : Operation) :
    after (operations ++ [last]) = (after operations).perform last := List.foldl_append

end History

def Operation.declared? : Operation → Option String
  | declare name ty value => if value.ty = ty then some name else none
  | _ => none

/-! Names. -/

theorem names_put (env : Environment) (b : Binding) :
    (env.put b).names = if b.name ∈ env.names then env.names else env.names ++ [b.name] := by
  induction env with
  | nil => rfl
  | cons first rest ih =>
      by_cases here : first.name = b.name
      · simp [put, names, here]
      · simp only [names] at ih
        by_cases later : b.name ∈ rest.map Binding.name
        · simp [put, names, here, ih, later]
        · simp [put, names, here, ih, later, Ne.symm here]

theorem names_of_frame (env after : Environment) (same : after.frame = env.frame) :
    after.names = env.names := by
  have named (env : Environment) : env.names = env.frame.map Prod.fst := by
    rw [frame, List.map_map]
    rfl
  rw [named, named, same]

theorem restore_frame (env : Environment) (values : List Value) :
    (env.restore values).frame = env.frame := by
  induction env generalizing values with
  | nil => cases values <;> rfl
  | cons b rest ih =>
      cases values with
      | nil => rfl
      | cons value values => exact congrArg (b.frame :: ·) (ih values)

theorem declaredType?_of_frame (env after : Environment) (same : after.frame = env.frame)
    (name : String) : after.declaredType? name = env.declaredType? name := by
  have reported (env : Environment) : env.declaredType? name =
      (env.frame.find? (·.1 == name)).map (·.2.1) := by
    rw [frame, List.find?_map, Option.map_map]
    rfl
  rw [reported, reported, same]

theorem declaredType?_isSome_iff (env : Environment) (name : String) :
    (env.declaredType? name).isSome = true ↔ name ∈ env.names := by
  rw [declaredType?, Option.isSome_map, binding?, List.find?_isSome]
  simp [names]

namespace History

theorem perform_frame (h : History) (op : Operation) (other : op.declared? = none) :
    (h.perform op).env.frame = h.env.frame := by
  cases op with
  | declare name ty value =>
      have unfit : value.ty ≠ ty := fun fits => by simp [Operation.declared?, fits] at other
      have refused : h.env.declare name ty value = .error (.typeMismatch name ty value.ty) := by
        simp [declare, check, unfit, bind, Except.bind]
      simp [perform, refused, Except.toOption]
  | assign name value =>
      cases assigned : h.env.assign name value with
      | error e => simp [perform, assigned, Except.toOption]
      | ok env =>
          simpa [perform, assigned, Except.toOption] using assign_frame _ env name value assigned
  | lookup | snapshot => rfl
  | reset =>
      rw [perform, frame, frame, Environment.reset, List.map_map]
      rfl
  | restore taken =>
      cases found : h.snapshots[taken]? with
      | none => simp [perform, found]
      | some values => simp [perform, found, restore_frame]

theorem perform_declare (h : History) (name : String) (ty : Ty) (value : Value)
    (fits : value.ty = ty) :
    (h.perform (.declare name ty value)).env = h.env.put ⟨name, ty, value, value⟩ := by
  have accepted := (declare_ok_iff h.env _ name ty value).mpr ⟨fits, rfl⟩
  simp [perform, accepted, Except.toOption]

theorem declared?_eq_some_iff (op : Operation) (name : String) : op.declared? = some name ↔
    ∃ value, op = .declare name value.ty value := by
  cases op with
  | declare name' ty value =>
      by_cases fits : value.ty = ty
      · subst fits
        simp [Operation.declared?, eq_comm]
      · simp only [Operation.declared?, fits, ↓reduceIte, reduceCtorEq, Operation.declare.injEq,
          false_iff]
        rintro ⟨v, -, rfl, rfl⟩
        exact fits rfl
  | _ => simp [Operation.declared?]

theorem names_perform (h : History) (op : Operation) : (h.perform op).env.names =
    h.env.names ++ (op.declared?.filter (· ∉ h.env.names)).toList := by
  cases declared : op.declared? with
  | none => simp [names_of_frame _ _ (perform_frame h op declared)]
  | some name =>
      obtain ⟨value, rfl⟩ := (declared?_eq_some_iff op name).mp declared
      rw [perform_declare h name _ value rfl, names_put]
      by_cases known : name ∈ h.env.names <;> simp [known, Option.filter]

theorem names_after (operations : List Operation) :
    (after operations).env.names = (operations.filterMap Operation.declared?).eraseDups := by
  induction operations using List.reverseRecOn with
  | nil => rfl
  | append_singleton operations last ih =>
      rw [after_snoc, names_perform, ih, List.filterMap_append, List.eraseDups_append]
      cases declared : last.declared? with
      | none => simp [declared]
      | some name =>
          generalize operations.filterMap Operation.declared? = sofar
          by_cases known : name ∈ sofar
          · simp [declared, known, List.removeAll, Option.filter]
          · simp [declared, known, List.removeAll, Option.filter, List.eraseDups_cons]

theorem names_nodup (operations : List Operation) : (after operations).env.names.Nodup := by
  induction operations using List.reverseRecOn with
  | nil => exact .nil
  | append_singleton operations last ih =>
      rw [after_snoc, names_perform]
      cases declared : last.declared? with
      | none => simpa [declared] using ih
      | some name =>
          by_cases known : name ∈ (after operations).env.names
          · simpa [known, Option.filter] using ih
          · have fresh : ∀ other ∈ (after operations).env.names, other ≠ name :=
              fun other member same => known (same ▸ member)
            simpa [known, Option.filter, List.nodup_append] using ⟨ih, fresh⟩

theorem names_grow (operations more : List Operation) :
    (after operations).env.names <+: (after (operations ++ more)).env.names := by
  induction more using List.reverseRecOn with
  | nil => simp
  | append_singleton more last ih =>
      rw [← List.append_assoc, after_snoc, names_perform]
      exact ih.trans (List.prefix_append _ _)

end History

/-! Values. -/

def Fits (env : Environment) (name : String) : Prop :=
  ∀ b, env.binding? name = some b → b.value.ty = b.ty

def FitsInitially (env : Environment) (name : String) : Prop :=
  ∀ b, env.binding? name = some b → b.initial.ty = b.ty

theorem fitsInitially_of_frame (env after : Environment) (name : String)
    (same : after.frame = env.frame) (fits : env.FitsInitially name) :
    after.FitsInitially name := by
  have framed (env : Environment) : (env.binding? name).map Binding.frame =
      env.frame.find? (·.1 == name) := by
    rw [frame, List.find?_map]
    rfl
  intro b found
  have there : (env.binding? name).map Binding.frame = some b.frame := by
    rw [framed, ← same, ← framed, found]
    rfl
  obtain ⟨old, here, alike⟩ := Option.map_eq_some_iff.mp there
  obtain ⟨-, sameTy, sameInitial⟩ :
      old.name = b.name ∧ old.ty = b.ty ∧ old.initial = b.initial := by
    simpa [Binding.frame] using alike
  rw [← sameTy, ← sameInitial]
  exact fits old here

theorem binding?_reset (env : Environment) (name : String) : env.reset.binding? name =
    (env.binding? name).map fun b => { b with value := b.initial } := by
  rw [reset, binding?, List.find?_map]
  rfl

theorem binding?_restore (earlier later : Environment) (name : String)
    (grown : earlier.names <+: later.names) : (later.restore earlier.snapshot).binding? name =
      (later.binding? name).map fun b =>
        { b with value := ((earlier.binding? name).map Binding.value).getD b.value } := by
  induction earlier generalizing later with
  | nil => cases later <;> simp [snapshot, restore, binding?]
  | cons old earlier ih =>
      cases later with
      | nil => simp [names] at grown
      | cons b later =>
          obtain ⟨sameName, grown⟩ : old.name = b.name ∧ names earlier <+: names later := by
            simpa [names] using grown
          have rest := ih later grown
          simp only [binding?, snapshot] at rest ⊢
          by_cases here : b.name = name
          · simp [restore, here, sameName]
          · simp [restore, here, sameName, rest]

namespace History

theorem perform_snapshots (h : History) (op : Operation) (other : op ≠ .snapshot) :
    (h.perform op).snapshots = h.snapshots := by
  cases op with
  | snapshot => exact absurd rfl other
  | _ => rfl

theorem snapshot_taken (operations : List Operation) (taken : Nat) (values : List Value)
    (found : (after operations).snapshots[taken]? = some values) :
    ∃ before between, operations = before ++ .snapshot :: between ∧
      (after before).snapshots.length = taken ∧ values = (after before).env.snapshot := by
  induction operations using List.reverseRecOn with
  | nil => cases found
  | append_singleton operations last ih =>
      rw [after_snoc] at found
      have earlier (found : (after operations).snapshots[taken]? = some values) :
          ∃ before between, operations ++ [last] = before ++ .snapshot :: between ∧
            (after before).snapshots.length = taken ∧ values = (after before).env.snapshot := by
        obtain ⟨before, between, rfl, number, same⟩ := ih found
        exact ⟨before, between ++ [last], by simp, number, same⟩
      cases last with
      | snapshot =>
          rw [perform, List.getElem?_append] at found
          split at found
          · exact earlier found
          · next beyond =>
              obtain ⟨rfl, rfl⟩ : (after operations).snapshots.length = taken ∧
                  (after operations).env.snapshot = values := by
                obtain ⟨inRange, same⟩ := List.getElem?_eq_some_iff.mp found
                simp only [List.length_singleton] at inRange
                exact ⟨by omega, by simpa using same⟩
              exact ⟨operations, [], rfl, rfl, rfl⟩
      | _ => exact earlier (by simpa [perform_snapshots] using found)

/-- Whenever a snapshot is restored, the variable of the name has the type that it had when
the snapshot was taken, if it was there at that time. -/
def KeepsType (operations : List Operation) (name : String) : Prop :=
  ∀ before between behind taken,
    operations = before ++ .snapshot :: (between ++ .restore taken :: behind) →
    (after before).snapshots.length = taken →
    ∀ ty, (after before).env.declaredType? name = some ty →
      (after (before ++ .snapshot :: between)).env.declaredType? name = some ty

theorem KeepsType.earlier {operations more : List Operation} {name : String}
    (keeps : KeepsType (operations ++ more) name) : KeepsType operations name := by
  rintro before between behind taken rfl number
  exact keeps before between (behind ++ more) taken (by simp) number

theorem fitsInitially_after (operations : List Operation) (name : String) :
    (after operations).env.FitsInitially name := by
  induction operations using List.reverseRecOn with
  | nil =>
      intro b found
      cases found
  | append_singleton operations last ih =>
      rw [after_snoc]
      cases declared : last.declared? with
      | none => exact fitsInitially_of_frame _ _ name (perform_frame _ last declared) ih
      | some other =>
          obtain ⟨value, rfl⟩ := (declared?_eq_some_iff last other).mp declared
          intro b found
          rw [perform_declare _ other _ value rfl, binding?_put] at found
          split at found
          · obtain rfl := Option.some.inj found
            rfl
          · exact ih b found

theorem restore_fits (earlier later : Environment) (name : String)
    (grown : earlier.names <+: later.names) (before : earlier.Fits name) (now : later.Fits name)
    (kept : ∀ ty, earlier.declaredType? name = some ty → later.declaredType? name = some ty) :
    (later.restore earlier.snapshot).Fits name := by
  intro restored found
  rw [binding?_restore earlier later name grown] at found
  obtain ⟨b, here, rfl⟩ := Option.map_eq_some_iff.mp found
  cases old : earlier.binding? name with
  | none => simpa [old] using now b here
  | some o =>
      have sameTy : some b.ty = some o.ty := by
        rw [← kept o.ty (by rw [declaredType?, old]; rfl), declaredType?, here]
        rfl
      simpa [old, Option.some.inj sameTy] using before o old

theorem perform_fits (h : History) (op : Operation) (name : String) (fits : h.env.Fits name)
    (initially : h.env.FitsInitially name) (other : ∀ taken, op ≠ .restore taken) :
    (h.perform op).env.Fits name := by
  cases op with
  | declare own ty value =>
      cases declared : h.env.declare own ty value with
      | error e => simpa [perform, declared, Except.toOption] using fits
      | ok env =>
          obtain ⟨rfl, rfl⟩ := (declare_ok_iff _ _ _ _ _).mp declared
          intro b found
          simp only [perform, declared, Except.toOption, Option.getD_some, binding?_put] at found
          split at found
          · obtain rfl := Option.some.inj found
            rfl
          · exact fits b found
  | assign own value =>
      cases assigned : h.env.assign own value with
      | error e => simpa [perform, assigned, Except.toOption] using fits
      | ok env =>
          obtain ⟨old, -, sameTy, rfl⟩ := (assign_ok_iff _ _ _ _).mp assigned
          intro b found
          simp only [perform, assigned, Except.toOption, Option.getD_some, binding?_put] at found
          split at found
          · obtain rfl := Option.some.inj found
            exact sameTy
          · exact fits b found
  | lookup | snapshot => exact fits
  | reset =>
      intro b found
      rw [perform, binding?_reset] at found
      obtain ⟨old, here, rfl⟩ := Option.map_eq_some_iff.mp found
      exact initially old here
  | restore taken => exact absurd rfl (other taken)

theorem fits_after (operations : List Operation) (name : String)
    (keeps : KeepsType operations name) : (after operations).env.Fits name := by
  -- A snapshot leads back to any earlier point, so the induction is on the length.
  induction count : operations.length using Nat.strongRecOn generalizing operations with
  | _ count ih =>
      subst count
      rcases operations.eq_nil_or_concat with rfl | ⟨operations, last, rfl⟩
      · intro b found
        cases found
      · rw [List.concat_eq_append] at keeps ih ⊢
        have now := ih operations.length (by simp) operations keeps.earlier rfl
        rw [after_snoc]
        by_cases restores : ∃ taken, last = .restore taken
        · obtain ⟨taken, rfl⟩ := restores
          cases found : (after operations).snapshots[taken]? with
          | none => simpa [perform, found] using now
          | some values =>
              obtain ⟨before, between, rfl, number, rfl⟩ := snapshot_taken _ _ _ found
              have then' := ih before.length (by simp) before
                (KeepsType.earlier (by simpa using keeps)) rfl
              simp only [perform, found, Option.map_some, Option.getD_some]
              exact restore_fits _ _ name (names_grow _ _) then' now
                (keeps before between [] taken (by simp) number)
        · exact perform_fits _ last name now (fitsInitially_after _ name)
            fun taken same => restores ⟨taken, same⟩

theorem declaredType?_declared (operations : List Operation) (name : String) (ty : Ty)
    (reported : (after operations).env.declaredType? name = some ty) :
    ∃ value, value.ty = ty ∧ .declare name ty value ∈ operations := by
  induction operations using List.reverseRecOn with
  | nil => cases reported
  | append_singleton operations last ih =>
      have earlier (reported : (after operations).env.declaredType? name = some ty) :
          ∃ value, value.ty = ty ∧ .declare name ty value ∈ operations ++ [last] := by
        obtain ⟨value, fits, member⟩ := ih reported
        exact ⟨value, fits, List.mem_append_left _ member⟩
      rw [after_snoc] at reported
      cases own : last.declared? with
      | none =>
          exact earlier (declaredType?_of_frame _ _ (perform_frame _ last own) name ▸ reported)
      | some other =>
          obtain ⟨value, rfl⟩ := (declared?_eq_some_iff last other).mp own
          rw [perform_declare _ other _ value rfl, declaredType?, binding?_put] at reported
          split at reported
          · next same =>
              obtain rfl := same
              obtain rfl := Option.some.inj reported
              exact ⟨value, rfl, by simp⟩
          · exact earlier reported

theorem keepsType_of_declared (operations : List Operation) (name : String) (ty : Ty)
    (always : ∀ other value, .declare name other value ∈ operations → other = ty) :
    KeepsType operations name := by
  rintro before between behind taken rfl - old reported
  obtain ⟨value, -, first⟩ := declaredType?_declared before name old reported
  have known := (declaredType?_isSome_iff _ name).mp (Option.isSome_of_eq_some reported)
  obtain ⟨now, still⟩ := Option.isSome_iff_exists.mp ((declaredType?_isSome_iff _ name).mpr
    ((names_grow before (.snapshot :: between)).subset known))
  obtain ⟨value', -, second⟩ := declaredType?_declared _ name now still
  rw [still, always old value (by simp [first]), always now value' ?_]
  rcases List.mem_append.mp second with member | member <;> simp_all

end History

/-- Whatever is done to an environment, the names of its variables are distinct and stand in
the order in which they were first declared, and every variable would be reset to a value of
its type. It has a value of its type, too, as long as no snapshot is restored that was taken
when the variable had another type. -/
theorem histories_typed (operations : List Operation) :
    let env := (History.after operations).env
    env.names = (operations.filterMap Operation.declared?).eraseDups ∧ env.names.Nodup ∧
      (∀ name, (env.declaredType? name).isSome = true ↔ name ∈ env.names) ∧
      ∀ name ty, env.declaredType? name = some ty →
        (∃ value, env.reset.lookup name = .ok value ∧ value.ty = ty) ∧
        (History.KeepsType operations name →
          ∃ value, env.lookup name = .ok value ∧ value.ty = ty) := by
  refine ⟨History.names_after operations, History.names_nodup operations,
    declaredType?_isSome_iff _, ?_⟩
  intro name ty declared
  obtain ⟨b, found, rfl⟩ := Option.map_eq_some_iff.mp declared
  constructor
  · refine ⟨b.initial, ?_, History.fitsInitially_after operations name b found⟩
    rw [lookup, binding?_reset, found]
    rfl
  · intro keeps
    refine ⟨b.value, ?_, History.fits_after operations name keeps b found⟩
    rw [lookup, found]

def relevelled : List Operation :=
  [.declare "level" .bool (.bool true), .snapshot, .declare "level" .bool (.bool false),
    .assign "level" (.string "high"), .restore 0]

theorem relevelled_typed :
    History.KeepsType relevelled "level" ∧
      (∃ value, (History.after relevelled).env.lookup "level" = .ok value ∧ value.ty = .bool) ∧
      (History.after relevelled).env.lookup "level" = .ok (.bool true) := by
  have keeps : History.KeepsType relevelled "level" :=
    History.keepsType_of_declared relevelled "level" .bool fun other value member => by
      have either : other = .bool ∧ value = .bool true ∨ other = .bool ∧ value = .bool false := by
        simpa [relevelled] using member
      exact either.elim And.left And.left
  exact ⟨keeps, ((histories_typed relevelled).2.2.2 "level" .bool (by decide)).2 keeps, by rfl⟩

/-- A snapshot that is older than a change of the type brings back a value of the old type. -/
theorem retyped_mistyped :
    let env := (History.after [.declare "level" .bool (.bool true), .snapshot,
      .declare "level" .string (.string "high"), .restore 0]).env
    env.declaredType? "level" = some .string ∧ env.lookup "level" = .ok (.bool true) :=
  ⟨by rfl, by rfl⟩

end SimBus.Environment
