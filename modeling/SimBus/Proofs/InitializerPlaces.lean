import SimBus.Proofs.Resolved
/-!
One initializer of a program in the place of another. Nothing but the typed form of the
initializer itself depends on it: not the types of the data, not the transitions, which are
checked against these, and not the warnings.
-/

namespace SimBus

/-- The place of an initializer in a program as written. -/
structure Surface.Site where
  earlier : List Surface.Object
  object : Surface.Object
  before : List Surface.DataVariable
  declared : Surface.DataVariable
  after : List Surface.DataVariable
  later : List Surface.Object

namespace Surface.Site

def objectWith (site : Site) (initializer : Expr) : Surface.Object :=
  { site.object with data := site.before ++ { site.declared with initializer } :: site.after }

def fill (site : Site) (initializer : Expr) : List Surface.Object :=
  site.earlier ++ site.objectWith initializer :: site.later

end Surface.Site

structure Program.Slot where
  earlier : List Definition
  definition : Definition
  before : List DataVariable
  declared : DataVariable
  after : List DataVariable
  later : List Definition
  warnings : List Warning

namespace Program.Slot

def definitionWith (slot : Slot) (initializer : Expr) : Definition :=
  { slot.definition with data := slot.before ++ { slot.declared with initializer } :: slot.after }

def fill (slot : Slot) (initializer : Expr) : Program :=
  ⟨slot.earlier ++ slot.definitionWith initializer :: slot.later, slot.warnings⟩

end Program.Slot

namespace Resolution

variable {table : BuiltinTable} {known : InterfaceSet}

def checked (table : BuiltinTable) (declared : Surface.DataVariable)
    (initializer : Surface.Expr) : Typing.Result Expr :=
  Typing.check table ⟨none, []⟩ ("initializer of '" ++ declared.name ++ "'") declared.ty initializer

theorem any_name {some other : List DataVariable}
    (same : other.map DataVariable.name = some.map DataVariable.name) (name : String) :
    other.any (·.name == name) = some.any (·.name == name) := by
  have whole (sofar : List DataVariable) :
      sofar.any (·.name == name) = (sofar.map DataVariable.name).any (· == name) := by
    rw [List.any_map]
    rfl
  rw [whole, whole, same]

theorem dataVariables_sofar (raws : List Surface.DataVariable) (sofar final : List DataVariable)
    (accepted : dataVariables table raws sofar = .ok final) :
    ∃ added, ∀ other : List DataVariable,
      other.map DataVariable.name = sofar.map DataVariable.name →
      dataVariables table raws other = .ok (other ++ added) := by
  induction raws generalizing sofar with
  | nil => exact ⟨[], fun other _ => by rw [List.append_nil]; rfl⟩
  | cons raw rest ih =>
      unfold dataVariables at accepted
      split at accepted
      · cases accepted
      · next fresh =>
          obtain ⟨initializer, typed, continued⟩ := (except_bind_ok_iff _ _ _).mp accepted
          obtain ⟨added, others⟩ := ih _ continued
          refine ⟨⟨raw.name, raw.ty, initializer, raw.position⟩ :: added, fun other same => ?_⟩
          rw [dataVariables, any_name same, if_neg fresh, typed]
          refine (others _ ?_).trans (by simp)
          rw [List.map_append, List.map_append, same]

theorem dataVariables_fill (before after : List Surface.DataVariable)
    (declared : Surface.DataVariable) (initializer : Surface.Expr) (sofar final : List DataVariable)
    (accepted : dataVariables table (before ++ { declared with initializer } :: after) sofar =
      .ok final) : ∃ left right, ∀ other,
      dataVariables table (before ++ { declared with initializer := other } :: after) sofar =
        (checked table declared other).map fun expr =>
          left ++ ⟨declared.name, declared.ty, expr, declared.position⟩ :: right := by
  induction before generalizing sofar with
  | nil =>
      simp only [List.nil_append] at accepted ⊢
      unfold dataVariables at accepted
      split at accepted
      · cases accepted
      · next fresh =>
          obtain ⟨expr, typed, continued⟩ := (except_bind_ok_iff _ _ _).mp accepted
          obtain ⟨added, others⟩ := dataVariables_sofar _ _ _ continued
          refine ⟨sofar, added, fun other => ?_⟩
          have step : dataVariables table ({ declared with initializer := other } :: after) sofar =
              checked table declared other >>= fun expr => dataVariables table after
                (sofar ++ [⟨declared.name, declared.ty, expr, declared.position⟩]) := by
            rw [dataVariables, if_neg fresh]
            rfl
          rw [step]
          cases checked table declared other with
          | error e => rfl
          | ok expr =>
              refine (others _ (by simp)).trans ?_
              rw [List.append_assoc]
              rfl
  | cons raw before ih =>
      simp only [List.cons_append] at accepted ⊢
      unfold dataVariables at accepted
      split at accepted
      · cases accepted
      · next fresh =>
          obtain ⟨expr, typed, continued⟩ := (except_bind_ok_iff _ _ _).mp accepted
          obtain ⟨left, right, others⟩ := ih _ continued
          refine ⟨left, right, fun other => ?_⟩
          rw [dataVariables, if_neg fresh, typed]
          exact others other

theorem unusedData_fill (d : Definition) (interfaces : List Interface)
    (before after : List DataVariable) (declared : DataVariable) (initializer other : Expr) :
    { d with data := before ++ { declared with initializer } :: after }.unusedData interfaces =
      { d with data := before ++ { declared with initializer := other } :: after }.unusedData
        interfaces := by
  have uses (data : List DataVariable) (name : String) :
      { d with data }.usesData name = d.usesData name := rfl
  simp only [Definition.unusedData, uses, List.filter_append, List.filter_cons, List.map_append]
  split <;> rfl

/-- What becomes of an object once its data are known. -/
def finish (table : BuiltinTable) (raw : Surface.Object) (interfaces : List Interface)
    (states : List String) (data : List DataVariable) :
    Typing.Result (Definition × List Warning) := do
  let ctx : Context := ⟨table, interfaces, data.map fun d => (d.name, d.ty), states⟩
  let (transitions, warnings) ← transitions ctx raw.path raw.transitions [] []
  let definition : Definition :=
    { path := raw.path
      names := raw.names
      interfaces := interfaces.map Interface.name
      data := data
      states := states
      transitions := transitions
      position := raw.position }
  pure (definition, warnings ++ definition.unusedData interfaces
    ++ definition.unhandledMethods interfaces)

theorem object_finish (raw : Surface.Object) (d : Definition) (warnings : List Warning)
    (accepted : object table known raw = .ok (d, warnings)) :
    ∃ interfaces states, ∀ written, object table known { raw with data := written } =
      dataVariables table written [] >>= finish table raw interfaces states := by
  unfold object at accepted
  split at accepted
  · cases accepted
  · next valid =>
      obtain ⟨interfaces, implements, accepted⟩ := (except_bind_ok_iff _ _ _).mp accepted
      split at accepted
      · cases accepted
      · next inhabited =>
          obtain ⟨states, stated, -⟩ := (except_bind_ok_iff _ _ _).mp accepted
          refine ⟨interfaces, states, fun written => ?_⟩
          rw [object, if_neg valid, implements]
          show (if raw.states.isEmpty then _ else _) = _
          rw [if_neg inhabited, stated]
          rfl

theorem finish_fill (raw : Surface.Object) (interfaces : List Interface) (states : List String)
    (before after : List DataVariable) (declared : DataVariable) (initializer other : Expr)
    (d : Definition) (warnings : List Warning)
    (finished : finish table raw interfaces states
      (before ++ { declared with initializer } :: after) = .ok (d, warnings)) :
    finish table raw interfaces states
        (before ++ { declared with initializer := other } :: after) =
      .ok ({ d with data := before ++ { declared with initializer := other } :: after },
        warnings) := by
  obtain ⟨⟨moves, others⟩, accepted, made⟩ := (except_bind_ok_iff _ _ _).mp finished
  obtain ⟨rfl, rfl⟩ := Prod.mk.inj (Except.ok.inj made)
  have types (initializer : Expr) :
      (before ++ { declared with initializer } :: after).map (fun d => (d.name, d.ty)) =
        before.map (fun d => (d.name, d.ty)) ++ (declared.name, declared.ty) ::
          after.map fun d => (d.name, d.ty) := by simp
  rw [types] at accepted
  refine (except_bind_ok_iff _ _ _).mpr ⟨(moves, others), by rw [types]; exact accepted, ?_⟩
  have unused := unusedData_fill ⟨raw.path, raw.names, interfaces.map Interface.name, [], states,
    moves, raw.position⟩ interfaces before after declared other initializer
  exact congrArg (fun unused => Except.ok (_, others ++ unused ++ _)) unused

theorem object_fill (site : Surface.Site) (initializer : Surface.Expr) (d : Definition)
    (warnings : List Warning)
    (accepted : object table known (site.objectWith initializer) = .ok (d, warnings)) :
    ∃ (before : List DataVariable) (declared : DataVariable) (after : List DataVariable),
      declared.name = site.declared.name ∧ declared.ty = site.declared.ty ∧
      ∀ other, object table known (site.objectWith other) =
        (checked table site.declared other).map fun initializer =>
          ({ d with data := before ++ { declared with initializer } :: after }, warnings) := by
  obtain ⟨interfaces, states, finishes⟩ := object_finish _ d warnings accepted
  have data := finishes (site.objectWith initializer).data
  obtain ⟨found, declares, finished⟩ := (except_bind_ok_iff _ _ _).mp (data.symm.trans accepted)
  obtain ⟨before, after, fills⟩ := dataVariables_fill _ _ _ _ _ _ declares
  obtain ⟨expr, -, rfl⟩ := (except_map_ok_iff _ _ _).mp ((fills initializer).symm.trans declares)
  refine ⟨before, ⟨site.declared.name, site.declared.ty, expr, site.declared.position⟩, after, rfl,
    rfl, fun other => ?_⟩
  refine (finishes (site.objectWith other).data).trans ?_
  rw [Surface.Site.objectWith, fills other]
  cases checked table site.declared other with
  | error e => rfl
  | ok typed =>
      exact finish_fill _ interfaces states before after
        ⟨site.declared.name, site.declared.ty, expr, site.declared.position⟩ expr typed d warnings
        finished

theorem objects_replace (earlier : List Surface.Object) (raw : Surface.Object)
    (later : List Surface.Object) (program : Program)
    (accepted : objects table known (earlier ++ raw :: later) = .ok program) :
    ∃ own before after warningsBefore warningsAfter, object table known raw = .ok own ∧
      ∀ other, objects table known (earlier ++ other :: later) =
        (object table known other).map fun made =>
          ⟨before ++ made.1 :: after, warningsBefore ++ (made.2 ++ warningsAfter)⟩ := by
  induction earlier generalizing program with
  | nil =>
      obtain ⟨own, here, accepted⟩ := (except_bind_ok_iff _ _ _).mp accepted
      obtain ⟨others, rest, -⟩ := (except_bind_ok_iff _ _ _).mp accepted
      refine ⟨own, [], others.definitions, [], others.warnings, here, fun other => ?_⟩
      rw [List.nil_append, objects, rest]
      cases object table known other <;> rfl
  | cons first earlier ih =>
      obtain ⟨made, here, accepted⟩ := (except_bind_ok_iff _ _ _).mp accepted
      obtain ⟨others, rest, -⟩ := (except_bind_ok_iff _ _ _).mp accepted
      obtain ⟨own, before, after, warningsBefore, warningsAfter, accepts, replaces⟩ :=
        ih others rest
      refine ⟨own, made.1 :: before, after, made.2 ++ warningsBefore, warningsAfter, accepts,
        fun other => ?_⟩
      rw [List.cons_append, objects, here, replaces other]
      cases object table known other with
      | error e => rfl
      | ok found =>
          show Except.ok _ = Except.ok _
          simp

/-- A program with another initializer in its place: if that has the type of the variable, the
program is as before but for its typed form, and otherwise it is refused for that. -/
theorem objects_fill (site : Surface.Site) (initializer : Surface.Expr) (program : Program)
    (accepted : objects table known (site.fill initializer) = .ok program) :
    ∃ slot : Program.Slot, slot.declared.name = site.declared.name ∧
      slot.declared.ty = site.declared.ty ∧
      ∀ other, objects table known (site.fill other) =
        (checked table site.declared other).map slot.fill := by
  obtain ⟨⟨d, warnings⟩, definitions, others, warningsBefore, warningsAfter, accepts, replaces⟩ :=
    objects_replace _ _ _ program accepted
  obtain ⟨before, declared, after, sameName, sameTy, fills⟩ :=
    object_fill site initializer d warnings accepts
  refine ⟨⟨definitions, d, before, declared, after, others,
    warningsBefore ++ (warnings ++ warningsAfter)⟩, sameName, sameTy, fun other => ?_⟩
  rw [Surface.Site.fill, replaces, fills]
  cases checked table site.declared other <;> rfl

end Resolution

end SimBus
