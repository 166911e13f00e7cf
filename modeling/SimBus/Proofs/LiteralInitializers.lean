import SimBus.Proofs.ConformingData
import SimBus.Proofs.IntegerArithmetic
import SimBus.Proofs.LiteralPlaces
import SimBus.Proofs.OwnTypes
import SimBus.Proofs.TypedDefinitions
/-!
Numbers as initializers of data. A number that is written in a program is that number, of the
type of its variable, or of the first type that can hold it where no type is expected; and a
number that the type cannot hold, or that cannot be read at all, makes the program refused.
-/

namespace SimBus

open Draws (Branch branch_run_bind_ok_iff branch_run_pure_iff)
open Surface (Literal Layer Site wrapped)

/-! Initial data. -/

namespace Definition

variable {table : BuiltinTable}

theorem declareAll_other (pending : List DataVariable) (env after : Environment) (name : String)
    (others : ∀ v ∈ pending, v.name ≠ name)
    (branch : Branch (declareAll table pending env).run (.ok after)) :
    after.binding? name = env.binding? name := by
  induction pending generalizing env with
  | nil =>
      obtain rfl := Except.ok.inj ((branch_run_pure_iff _ _).mp branch)
      rfl
  | cons v rest ih =>
      obtain ⟨value, -, branch⟩ := (branch_run_bind_ok_iff _ _ _).mp branch
      obtain ⟨middle, declared, branch⟩ := (branch_run_bind_ok_iff _ _ _).mp branch
      obtain ⟨-, rfl⟩ := (Environment.declare_ok_iff _ _ _ _ _).mp
        ((Eval.branch_run_ofExcept_iff _ _).mp declared).symm
      obtain ⟨other, others⟩ := List.forall_mem_cons.mp others
      rw [ih _ others branch, Environment.binding?_put, if_neg other]

theorem declareAll_binding? (before after : List DataVariable) (v : DataVariable)
    (env final : Environment) (others : ∀ other ∈ after, other.name ≠ v.name)
    (branch : Branch (declareAll table (before ++ v :: after) env).run (.ok final)) :
    ∃ env value, Branch (v.initializer.eval ⟨table, env, []⟩).run (.ok value) ∧
      final.binding? v.name = some ⟨v.name, v.ty, value, value⟩ := by
  induction before generalizing env with
  | nil =>
      obtain ⟨value, evaluated, branch⟩ := (branch_run_bind_ok_iff _ _ _).mp branch
      obtain ⟨middle, declared, branch⟩ := (branch_run_bind_ok_iff _ _ _).mp branch
      obtain ⟨-, rfl⟩ := (Environment.declare_ok_iff _ _ _ _ _).mp
        ((Eval.branch_run_ofExcept_iff _ _).mp declared).symm
      refine ⟨env, value, evaluated, ?_⟩
      rw [declareAll_other after _ final v.name others branch, Environment.binding?_put, if_pos rfl]
  | cons first before ih =>
      obtain ⟨value, -, branch⟩ := (branch_run_bind_ok_iff _ _ _).mp branch
      obtain ⟨middle, -, branch⟩ := (branch_run_bind_ok_iff _ _ _).mp branch
      exact ih middle branch

end Definition

/-! Numbers and their types. -/

namespace IntKind

instance decidableHolds (kind : IntKind) (z : Int) : Decidable (kind.Holds z) :=
  inferInstanceAs (Decidable (_ ∧ _))

/-- The kind that a number takes where no type is expected: the first of these that holds it. -/
def default? (z : Int) : Option IntKind := [int32, int64, uint64].find? fun kind => kind.Holds z

end IntKind

def signed (minus : Option Position) (n : Nat) : Int :=
  match minus with
  | none => n
  | some _ => -n

def signedPlace (minus : Option Position) (place : Position) : Position := minus.getD place

def signLayers (minus : Option Position) : List Layer := (minus.map Layer.negate).toList

namespace Typing

variable {table : BuiltinTable} {scope : Scope} {kind : IntKind}

theorem infer_signed (hint : Option Ty) (minus : Option Position) (place : Position) (n : Nat) :
    infer table scope hint (wrapped (signLayers minus) place n) =
      integer (signedPlace minus place) (signed minus n) hint := by
  cases minus <;> rfl

theorem integer_held (position : Position) (number : IntKind.Number kind) :
    integer position number.val (some (.int kind)) = .ok (.literal (.int kind number), .int kind) :=
  integer_made position _ _ (.int kind) _ rfl
    (by rw [Value.ofInt, IntKind.number?_held kind _ (IntKind.number_held number)])

theorem integer_outside (position : Position) (z : Int) (outside : ¬ kind.Holds z) :
    integer position z (some (.int kind)) = fail position (.literalOutOfRange z (.int kind)) :=
  integer_unmade position z _ (.int kind) (.outOfRange (.int kind) z) rfl
    (by rw [Value.ofInt, (IntKind.number?_eq_none_iff kind z).mpr outside])

theorem defaultType?_eq (z : Int) : defaultType? z = (IntKind.default? z).map Ty.int := by
  have same (kind : IntKind) : (kind.number? z).isSome = decide (kind.Holds z) := by
    by_cases held : kind.Holds z
    · simp [IntKind.number?_held kind z held, held]
    · simp [(IntKind.number?_eq_none_iff kind z).mpr held, held]
  simp only [defaultType?, IntKind.default?, same]

theorem integer_default (position : Position) (number : IntKind.Number kind)
    (first : IntKind.default? number.val = some kind) :
    integer position number.val none = .ok (.literal (.int kind number), .int kind) :=
  integer_made position _ _ (.int kind) _
    (by rw [literalType?, defaultType?_eq, first, Option.map_some])
    (by rw [Value.ofInt, IntKind.number?_held kind _ (IntKind.number_held number)])

theorem integer_noDefault (position : Position) (z : Int) (absent : IntKind.default? z = none) :
    integer position z none = fail position (.literalOutOfRange z (.int .uint64)) :=
  integer_unnamed position z none (by rw [literalType?, defaultType?_eq, absent, Option.map_none])

theorem infer_variant (hint : Option Ty) (position : Position) (inner : Surface.Expr) :
    infer table scope hint (.variant position inner) =
      (infer table scope none inner).map fun found => (.variant found.1, .variant) := by
  rw [infer]
  cases infer table scope none inner <;> rfl

end Typing

/-- How a number initializes a variable: as a value of the integer type that the variable has,
or in a variant, where no type is expected. -/
inductive NumberForm where
  | typed (kind : IntKind)
  | boxed (position : Position)

namespace NumberForm

def ty : NumberForm → Ty
  | typed kind => .int kind
  | boxed _ => .variant

def layers : NumberForm → List Layer
  | typed _ => []
  | boxed position => [.variant position]

def kind? (z : Int) : NumberForm → Option IntKind
  | typed kind => if kind.Holds z then some kind else none
  | boxed _ => IntKind.default? z

def refusedKind : NumberForm → IntKind
  | typed kind => kind
  | boxed _ => .uint64

def initializer (number : Value) : NumberForm → Expr
  | typed _ => .literal number
  | boxed _ => .variant (.literal number)

def value (number : Value) : NumberForm → Value
  | typed _ => number
  | boxed _ => .variant number

theorem kind?_holds (form : NumberForm) (z : Int) (kind : IntKind)
    (taken : form.kind? z = some kind) : kind.Holds z := by
  cases form with
  | typed own =>
      rw [kind?] at taken
      split at taken
      · next held => exact Option.some.inj taken ▸ held
      · cases taken
  | boxed position => simpa using List.find?_some taken

theorem eval_initializer (form : NumberForm) (number : Value) (ctx : EvalContext) :
    (form.initializer number).eval ctx = pure (form.value number) := by
  cases form with
  | typed kind => rfl
  | boxed position => rfl

section Checked

variable (form : NumberForm) (table : BuiltinTable) (declared : Surface.DataVariable)
  (typed : declared.ty = form.ty) (minus : Option Position) (place : Position) (n : Nat)

include typed

theorem checked_taken (kind : IntKind) (number : kind.Number) (same : number.val = signed minus n)
    (taken : form.kind? (signed minus n) = some kind) :
    Resolution.checked table declared (wrapped (form.layers ++ signLayers minus) place n) =
      .ok (form.initializer (.int kind number)) := by
  rw [Resolution.checked, Typing.check, typed]
  cases form with
  | typed own =>
      rw [kind?] at taken
      split at taken
      · obtain rfl := Option.some.inj taken
        rw [layers, List.nil_append, ty, Typing.expect_ok_iff, Typing.infer_signed, ← same,
          Typing.integer_held]
        rfl
      · cases taken
  | boxed position =>
      have inner := Typing.integer_default (signedPlace minus place) number (same ▸ taken)
      show Typing.expect _ _ _ (Typing.infer table ⟨none, []⟩ (some .variant)
        (.variant position (wrapped (signLayers minus) place n))) = _
      rw [Typing.expect_ok_iff, Typing.infer_variant, Typing.infer_signed, ← same, inner]
      rfl

theorem checked_refused (refused : form.kind? (signed minus n) = none) :
    Resolution.checked table declared (wrapped (form.layers ++ signLayers minus) place n) =
      Typing.fail (signedPlace minus place)
        (.literalOutOfRange (signed minus n) (.int form.refusedKind)) := by
  rw [Resolution.checked, Typing.check, typed]
  cases form with
  | typed own =>
      rw [kind?] at refused
      split at refused
      · cases refused
      · next outside =>
          rw [layers, List.nil_append, ty, Typing.infer_signed,
            Typing.integer_outside _ _ outside]
          rfl
  | boxed position =>
      show Typing.expect _ _ _ (Typing.infer table ⟨none, []⟩ (some .variant)
        (.variant position (wrapped (signLayers minus) place n))) = _
      rw [Typing.infer_variant, Typing.infer_signed, Typing.integer_noDefault _ _ refused]
      rfl

end Checked

end NumberForm

/-! Programs. -/

namespace Program

/-- A place in a program text at which a number stands. -/
structure Spot where
  before : List Char
  after : List Char
  ends : Surface.Ends after

namespace Spot

def place (spot : Spot) : Position := Position.past ⟨1, 1⟩ spot.before

def text (spot : Spot) (literal : Literal) : String :=
  String.ofList (spot.before ++ (literal.text ++ spot.after))

end Spot

theorem initial_value {table : BuiltinTable} {known : InterfaceSet} {text : String}
    (slot : Slot) (initializer : Expr) (name : String) (named : slot.declared.name = name)
    (accepted : parse table known text = .ok (slot.fill initializer)) (o : Object)
    (created : Branch (Object.create (slot.definitionWith initializer) known table).run (.ok o)) :
    ∃ env value, Branch (initializer.eval ⟨table, env, []⟩).run (.ok value) ∧
      o.env.binding? name = some ⟨name, slot.declared.ty, value, value⟩ := by
  obtain ⟨raw, ctx, resolved⟩ := Resolution.parse_resolved table known text _
    (slot.definitionWith initializer) accepted (by simp [Slot.fill])
  have distinct := (Resolution.resolved_typed table known raw _ ctx resolved).distinct
  simp only [Slot.definitionWith, List.map_append, List.map_cons, List.nodup_append,
    List.nodup_cons] at distinct
  have others : ∀ other ∈ slot.after, other.name ≠ slot.declared.name :=
    fun other member same => distinct.2.1.1 (same ▸ List.mem_map_of_mem member)
  obtain ⟨-, -, data⟩ := Object.create_ok _ known table o created
  exact named ▸ Definition.declareAll_binding? slot.before slot.after
    { slot.declared with initializer } _ o.env others data

section Literal

variable (table : BuiltinTable) (known : InterfaceSet) (spot : Spot) (site : Site)
  (form : NumberForm) (minus : Option Position) (program : Program) (literal : Literal)

/-- What a literal is, as an initializer of a program that is otherwise like `program`, and
wherever else it stands. -/
structure Exact : Prop where
  /-- It is the number that is written, if the type has it: nothing else about the program
  changes, the initializer has no other value and never fails, and every object begins with
  that number in the variable. -/
  accepted : literal.value < 2 ^ 127 → ∀ kind,
    form.kind? (signed minus literal.value) = some kind →
      ∃ (slot : Slot) (initializer : Expr) (number : kind.Number),
        number.val = signed minus literal.value ∧ slot.declared.name = site.declared.name ∧
        slot.declared.ty = site.declared.ty ∧ program = slot.fill initializer ∧
        parse table known (spot.text literal) =
          .ok (slot.fill (form.initializer (.int kind number))) ∧
        (∀ ctx, (form.initializer (.int kind number)).eval ctx =
          pure (form.value (.int kind number))) ∧
        ∀ o, Branch (Object.create (slot.definitionWith (form.initializer (.int kind number)))
          known table).run (.ok o) → o.env.binding? site.declared.name = some
            ⟨site.declared.name, form.ty, form.value (.int kind number),
              form.value (.int kind number)⟩
  refused : literal.value < 2 ^ 127 → form.kind? (signed minus literal.value) = none →
    parse table known (spot.text literal) = .error (.semantic (signedPlace minus spot.place)
      (.literalOutOfRange (signed minus literal.value) (.int form.refusedKind)))
  tooGreat : 2 ^ 127 ≤ literal.value → parse table known (spot.text literal) =
    .error (.grammar ⟨spot.place, literal.fault.1, literal.fault.2⟩)
  /-- In a variant anywhere it takes the first of the kinds that holds it. -/
  untyped : ∀ scope hint position place,
    let inferred := Typing.infer table scope hint
      (.variant position (wrapped (signLayers minus) place literal.value))
    (∀ kind, IntKind.default? (signed minus literal.value) = some kind → ∃ number : kind.Number,
      number.val = signed minus literal.value ∧
        inferred = .ok (.variant (.literal (.int kind number)), .variant)) ∧
    (IntKind.default? (signed minus literal.value) = none →
      inferred = Typing.fail (signedPlace minus place)
        (.literalOutOfRange (signed minus literal.value) (.int .uint64)))
  /-- Nowhere is a number read that is too great. -/
  unreadable : 2 ^ 127 ≤ literal.value → ∀ place after, Surface.Ends after →
    Surface.readToken ⟨literal.text ++ after, place⟩ =
      .error ⟨place, literal.fault.1, literal.fault.2⟩

/-- A number in the place of an initializer is exact or refused. The program around it is valid
with some other number of the same length in its place, such as zeros. -/
theorem literal_exact (other : Literal) (typed : site.declared.ty = form.ty)
    (written : Surface.parse (spot.text other) =
      .ok (site.fill (wrapped (form.layers ++ signLayers minus) spot.place other.value)))
    (valid : parse table known (spot.text other) = .ok program)
    (same : literal.text.length = other.text.length) :
    Exact table known spot site form minus program literal := by
  have limit : Surface.integerLimit = 2 ^ 127 := rfl
  have read := Surface.parse_literal site _ _ _ literal other same spot.ends written
  rw [parse, written] at valid
  obtain ⟨slot, sameName, sameTy, fills⟩ := Resolution.objects_fill site _ program valid
  obtain ⟨initializer, -, made⟩ := (except_map_ok_iff _ _ _).mp ((fills _).symm.trans valid)
  -- The literal is read, and what becomes of it is left to the initializer.
  have resolved (small : literal.value < 2 ^ 127) : parse table known (spot.text literal) =
      (Resolution.checked table site.declared
        (wrapped (form.layers ++ signLayers minus) spot.place literal.value)).map slot.fill := by
    rw [← fills, parse, Spot.text, read, Literal.read, limit, if_pos small]
    rfl
  constructor
  · intro small kind taken
    have held := form.kind?_holds _ kind taken
    let number : kind.Number := ⟨_, held.1, held.2⟩
    have accepted : parse table known (spot.text literal) =
        .ok (slot.fill (form.initializer (.int kind number))) := by
      rw [resolved small,
        form.checked_taken table site.declared typed minus _ _ kind number rfl taken]
      rfl
    refine ⟨slot, initializer, number, rfl, sameName, sameTy, made.symm, accepted,
      form.eval_initializer _, fun o created => ?_⟩
    obtain ⟨env, value, evaluated, bound⟩ :=
      initial_value slot _ site.declared.name sameName accepted o created
    rw [form.eval_initializer] at evaluated
    obtain rfl := Except.ok.inj ((branch_run_pure_iff _ _).mp evaluated)
    rw [bound, sameTy, typed]
  · intro small refused
    rw [resolved small, form.checked_refused table site.declared typed minus _ _ refused]
    rfl
  · intro great
    rw [parse, Spot.text, read, Literal.read, limit, if_neg (Nat.not_lt.mpr great)]
    rfl
  · intro scope hint position place
    simp only [Typing.infer_variant, Typing.infer_signed]
    constructor
    · intro kind first
      have held : kind.Holds (signed minus literal.value) := by simpa using List.find?_some first
      let number : kind.Number := ⟨_, held.1, held.2⟩
      refine ⟨number, rfl, ?_⟩
      rw [Typing.integer_default (signedPlace minus place) number first]
      rfl
    · intro absent
      rw [Typing.integer_noDefault _ _ absent]
      rfl
  · intro great place after ends
    rw [Surface.readToken_literal literal after place ends, Literal.read, limit,
      if_neg (Nat.not_lt.mpr great)]
    rfl

end Literal

def dialSpot : Spot where
  before := "object at /dial implements test.Lamp \x7b data \x7b level : n = -".toList
  after := ';' :: " \x7d states \x7b still; \x7d \x7d".toList
  ends := by
    intro c first
    obtain rfl := Option.some.inj first
    exact ⟨rfl, by decide⟩

def dialSite : Site where
  earlier := []
  object := ⟨"/dial", [], [⟨"test.Lamp", ⟨1, 28⟩⟩], [], [⟨"still", ⟨1, 79⟩⟩], [], ⟨1, 1⟩⟩
  before := []
  declared := ⟨"level", .int .int16, .integer ⟨1, 60⟩ 0, ⟨1, 47⟩⟩
  after := []
  later := []

def dial (held : IntKind.int16.Holds 0) : Program where
  definitions := [⟨"/dial", [], ["test.Lamp"],
    [⟨"level", .int .int16, .literal (.int .int16 ⟨0, held.1, held.2⟩), ⟨1, 47⟩⟩], ["still"], [],
    ⟨1, 1⟩⟩]
  warnings := [⟨"/dial", ⟨1, 47⟩, .unusedData "level"⟩,
    ⟨"/dial", ⟨1, 1⟩, .unhandledMethod "test.Lamp" "Light"⟩]

def sixZeros : Literal := .decimal (List.replicate 6 '0') (by simp) (List.all_eq_true.mp rfl)

def eightThousandHex : Literal :=
  .hexadecimal false ['8', '0', '0', '0'] (by simp) (List.all_eq_true.mp rfl)

set_option maxRecDepth 100000 in
theorem dial_written : Surface.parse (dialSpot.text sixZeros) =
    .ok (dialSite.fill (wrapped (signLayers (some ⟨1, 59⟩)) dialSpot.place 0)) := by
  have read : Surface.Reader.program.run (Surface.Cursor.start (dialSpot.text sixZeros)) =
      .ok (dialSite.fill (wrapped (signLayers (some ⟨1, 59⟩)) dialSpot.place 0),
        ⟨[], ⟨1, 89⟩⟩) := by
    unfold Surface.Cursor.start Spot.text
    rw [String.toList_ofList]
    unfold dialSpot
    dsimp only
    repeat rewrite [String.toList_ofList]
    cbv
  rw [Surface.parse, read]
  rfl

theorem dial_lowest : ∃ slot : Slot, slot.declared.name = "level" ∧
    parse Builtin.standard lampKnown (dialSpot.text eightThousandHex) =
      .ok (slot.fill (.literal (.int .int16 ⟨-32768, by decide, by decide⟩))) := by
  have held : IntKind.int16.Holds 0 := by decide
  have valid : parse Builtin.standard lampKnown (dialSpot.text sixZeros) = .ok (dial held) := by
    rw [parse, dial_written]
    rfl
  have exact := literal_exact Builtin.standard lampKnown dialSpot dialSite (.typed .int16)
    (some ⟨1, 59⟩) (dial held) eightThousandHex sixZeros rfl dial_written valid rfl
  obtain ⟨slot, -, ⟨z, low, high⟩, same, sameName, -, -, accepted, -⟩ :=
    exact.accepted (by decide) .int16 (by decide)
  obtain rfl : z = -32768 := same.trans (by decide)
  exact ⟨slot, sameName, accepted⟩

end Program

end SimBus
