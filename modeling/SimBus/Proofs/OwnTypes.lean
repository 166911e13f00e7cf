import SimBus.Proofs.Inference
/-!
The type of an expression as its hint. What inference finds under any hint it finds again when
the type that it found is the hint, since every part that takes a hint over is then given the
type it had before. An annotation with the type that an expression has by itself changes nothing.
-/

namespace SimBus.Typing

variable {table : BuiltinTable} {scope : Scope}

/-! What inference accepts, form by form. -/

def literalType? (value : Int) : Option Ty → Option Ty
  | some ty => if ty.isNumeric then some ty else defaultType? value
  | none => defaultType? value

section Literal

variable (position : Position) (value : Int) (hint : Option Ty)

theorem integer_unnamed (unnamed : literalType? value hint = none) :
    integer position value hint = fail position (.literalOutOfRange value (.int .uint64)) := by
  cases hint <;> simp only [literalType?] at unnamed <;> simp only [integer, unnamed]

theorem integer_made (ty : Ty) (literal : Value) (named : literalType? value hint = some ty)
    (made : Value.ofInt ty value = .ok literal) :
    integer position value hint = .ok (.literal literal, ty) := by
  cases hint <;> simp only [literalType?] at named <;> simp only [integer, named, made]

theorem integer_unmade (ty : Ty) (e : ValueError) (named : literalType? value hint = some ty)
    (unmade : Value.ofInt ty value = .error e) :
    integer position value hint = fail position (.literalOutOfRange value ty) := by
  cases hint <;> simp only [literalType?] at named <;> simp only [integer, named, unmade]

theorem integer_ok_iff (expr : Expr) (ty : Ty) :
    integer position value hint = .ok (expr, ty) ↔ literalType? value hint = some ty ∧
      ∃ literal, Value.ofInt ty value = .ok literal ∧ expr = .literal literal := by
  constructor
  · intro accepted
    cases named : literalType? value hint with
    | none =>
        rw [integer_unnamed position value hint named] at accepted
        cases accepted
    | some wanted =>
        cases made : Value.ofInt wanted value with
        | error e =>
            rw [integer_unmade position value hint wanted e named made] at accepted
            cases accepted
        | ok literal =>
            rw [integer_made position value hint wanted literal named made] at accepted
            obtain ⟨rfl, rfl⟩ := Prod.mk.inj (Except.ok.inj accepted)
            exact ⟨rfl, literal, made, rfl⟩
  · rintro ⟨named, literal, made, rfl⟩
    exact integer_made position value hint ty literal named made

end Literal

theorem infer_tuple_iff (position : Position) (items : List Surface.Expr) (hint : Option Ty)
    (expr : Expr) (ty : Ty) :
    infer table scope hint (.tuple position items) = .ok (expr, ty) ↔
      ∃ exprs types, inferTuple table scope (tupleHints items.length hint) items =
        .ok (exprs, types) ∧ expr = .tuple exprs ∧ ty = .tuple types := by
  rw [infer, except_bind_ok_iff]
  constructor
  · rintro ⟨⟨exprs, types⟩, each, answered⟩
    obtain ⟨rfl, rfl⟩ := Prod.mk.inj (Except.ok.inj answered)
    exact ⟨exprs, types, each, rfl, rfl⟩
  · rintro ⟨exprs, types, each, rfl, rfl⟩
    exact ⟨(exprs, types), each, rfl⟩

theorem infer_array_iff (position : Position) (items : List Surface.Expr) (hint : Option Ty)
    (expr : Expr) (ty : Ty) :
    infer table scope hint (.array position items) = .ok (expr, ty) ↔
      ∃ exprs element, inferItems table scope (arrayHint hint) items = .ok (exprs, some element) ∧
        expr = .array element exprs ∧ ty = .array element := by
  rw [infer, except_bind_ok_iff]
  constructor
  · rintro ⟨⟨exprs, _ | element⟩, each, made⟩
    · cases made
    · obtain ⟨rfl, rfl⟩ := Prod.mk.inj (Except.ok.inj made)
      exact ⟨exprs, element, each, rfl, rfl⟩
  · rintro ⟨exprs, element, each, rfl, rfl⟩
    exact ⟨(exprs, some element), each, rfl⟩

theorem guarded_ok_iff (condition : Prop) [Decidable condition] (position : Position)
    (problem : SemanticError) (admitted made : Typed) :
    (if condition then .ok admitted else fail position problem : Result Typed) = .ok made ↔
      condition ∧ made = admitted := by
  split
  · next holds => simp [holds, eq_comm]
  · next fails => simp [fails, fail]

theorem infer_dict_iff (position : Position) (entries : List (Surface.Expr × Surface.Expr))
    (hint : Option Ty) (expr : Expr) (ty : Ty) :
    infer table scope hint (.dict position entries) = .ok (expr, ty) ↔
      ∃ pairs key value, inferEntries table scope (dictHint hint).1 (dictHint hint).2 entries =
        .ok (pairs, some key, some value) ∧ key.isBasic = true ∧
          expr = .dict key value pairs ∧ ty = .dict key value := by
  rw [infer, except_bind_ok_iff]
  constructor
  · rintro ⟨⟨pairs, key, value⟩, each, made⟩
    simp only [dictOf] at made
    split at made
    · next key value =>
        obtain ⟨basic, same⟩ := (guarded_ok_iff _ _ _ _ _).mp made
        obtain ⟨rfl, rfl⟩ := Prod.mk.inj same
        exact ⟨pairs, key, value, each, basic, rfl, rfl⟩
    · cases made
  · rintro ⟨pairs, key, value, each, basic, rfl, rfl⟩
    exact ⟨(pairs, some key, some value), each, if_pos basic⟩

theorem infer_choice_iff (position : Position) (first : Surface.Expr)
    (others : List Surface.Expr) (hint : Option Ty) (expr : Expr) (ty : Ty) :
    infer table scope hint (.choice position (first :: others)) = .ok (expr, ty) ↔
      ∃ head tail, infer table scope hint first = .ok (head, ty) ∧
        inferAlternatives table scope ty others = .ok tail ∧ expr = .choice (head :: tail) := by
  simp only [infer, except_bind_ok_iff]
  constructor
  · rintro ⟨⟨head, found⟩, inferred, tail, alternatives, answered⟩
    obtain ⟨rfl, rfl⟩ := Prod.mk.inj (Except.ok.inj answered)
    exact ⟨head, tail, inferred, alternatives, rfl⟩
  · rintro ⟨head, tail, inferred, alternatives, rfl⟩
    exact ⟨(head, ty), inferred, tail, alternatives, rfl⟩

theorem negated_ok_iff (position : Position) (operand expr : Expr) (found ty : Ty) :
    negated position (operand, found) = .ok (expr, ty) ↔
      ty.isNumeric = true ∧ expr = .negate operand ∧ ty = found := by
  simp only [negated, guarded_ok_iff, Prod.mk.injEq]
  constructor
  · rintro ⟨numeric, rfl, rfl⟩
    exact ⟨numeric, rfl, rfl⟩
  · rintro ⟨numeric, rfl, rfl⟩
    exact ⟨numeric, rfl, rfl⟩

theorem operation_ok_iff (position : Position) (op : BinaryOp) (left right expr : Expr)
    (found ty : Ty) :
    operation position op left right found = .ok (expr, ty) ↔ supports op found = true ∧
      expr = .binary op left right ∧ ty = if op.isComparison then .bool else found := by
  simp only [operation, guarded_ok_iff, Prod.mk.injEq]

/-- How the two operands of an operator get one type: one of them is typed first, and the other
is wanted to have the type of the first. -/
def Operands (table : BuiltinTable) (scope : Scope) (hint : Option Ty) (lhs rhs : Surface.Expr)
    (left right : Expr) (ty : Ty) : Prop :=
  if isOpen lhs && !isOpen rhs then
    infer table scope hint rhs = .ok (right, ty) ∧ infer table scope (some ty) lhs = .ok (left, ty)
  else
    infer table scope hint lhs = .ok (left, ty) ∧ infer table scope (some ty) rhs = .ok (right, ty)

theorem infer_binary_iff (position : Position) (op : BinaryOp) (strict : op ≠ .and ∧ op ≠ .or)
    (lhs rhs : Surface.Expr) (hint : Option Ty) (expr : Expr) (ty : Ty) :
    infer table scope hint (.binary position op lhs rhs) = .ok (expr, ty) ↔
      ∃ left right found, Operands table scope (operandHint op hint) lhs rhs left right found ∧
        supports op found = true ∧ expr = .binary op left right ∧
          ty = if op.isComparison then .bool else found := by
  have notLogical : ¬ (op = .and ∨ op = .or) := not_or.mpr strict
  rw [infer, if_neg notLogical]
  unfold Operands
  by_cases rightFirst : (isOpen lhs && !isOpen rhs) = true
  · simp only [rightFirst, ↓reduceIte, except_bind_ok_iff, expect_ok_iff, operation_ok_iff]
    constructor
    · rintro ⟨⟨right, found⟩, inferred, left, checked, made⟩
      exact ⟨left, right, found, ⟨inferred, checked⟩, made⟩
    · rintro ⟨left, right, found, ⟨inferred, checked⟩, made⟩
      exact ⟨(right, found), inferred, left, checked, made⟩
  · simp only [rightFirst, Bool.false_eq_true, ↓reduceIte, except_bind_ok_iff, expect_ok_iff,
      operation_ok_iff]
    constructor
    · rintro ⟨⟨left, found⟩, inferred, right, checked, made⟩
      exact ⟨left, right, found, ⟨inferred, checked⟩, made⟩
    · rintro ⟨left, right, found, ⟨inferred, checked⟩, made⟩
      exact ⟨(left, found), inferred, right, checked, made⟩

/-! What is found once is found again. -/

theorem literalType?_again (value : Int) (ty : Ty) (literal : Value)
    (made : Value.ofInt ty value = .ok literal) : literalType? value (some ty) = some ty := by
  cases ty <;> first | rfl | cases made

theorem integer_again (position : Position) (value : Int) (hint : Option Ty) (expr : Expr) (ty : Ty)
    (found : integer position value hint = .ok (expr, ty)) :
    integer position value (some ty) = .ok (expr, ty) := by
  obtain ⟨-, literal, made, rfl⟩ := (integer_ok_iff _ _ _ _ _).mp found
  exact (integer_ok_iff _ _ _ _ _).mpr
    ⟨literalType?_again value ty literal made, literal, made, rfl⟩

theorem string_again (position : Position) (text : String) (hint : Option Ty) (expr : Expr)
    (ty : Ty) (found : string position text hint = .ok (expr, ty)) :
    string position text (some ty) = .ok (expr, ty) := by
  unfold string at found
  split at found
  · split at found
    · next valid =>
        obtain ⟨rfl, rfl⟩ := Prod.mk.inj (Except.ok.inj found)
        simp [string, valid]
    · cases found
  · obtain ⟨rfl, rfl⟩ := Prod.mk.inj (Except.ok.inj found)
    rfl

theorem slot_again (position : Position) (context : String) (ty : Ty) (expr : Expr) :
    slot position context (some ty) (.ok (expr, ty)) = .ok (expr, some ty) := by
  simp [slot, (expect_ok_iff position context ty _ expr).mpr rfl, bind, Except.bind, pure,
    Except.pure]

theorem operands_again (lhs rhs : Surface.Expr) (hint : Option Ty) (left right : Expr) (ty : Ty)
    (ofLeft : infer table scope hint lhs = .ok (left, ty) →
      infer table scope (some ty) lhs = .ok (left, ty))
    (ofRight : infer table scope hint rhs = .ok (right, ty) →
      infer table scope (some ty) rhs = .ok (right, ty))
    (found : Operands table scope hint lhs rhs left right ty) :
    Operands table scope (some ty) lhs rhs left right ty := by
  unfold Operands at found ⊢
  split at found
  · next rightFirst => exact (if_pos rightFirst).mpr ⟨ofRight found.1, found.2⟩
  · next leftFirst => exact (if_neg leftFirst).mpr ⟨ofLeft found.1, found.2⟩

mutual
/-- The type that is found under some hint, as the hint, gives the same. -/
theorem infer_again : (raw : Surface.Expr) → (hint : Option Ty) → (expr : Expr) → (ty : Ty) →
    infer table scope hint raw = .ok (expr, ty) → infer table scope (some ty) raw = .ok (expr, ty)
  | .bool _ _, _, _, _, found => by rwa [infer] at found ⊢
  | .integer position n, hint, expr, ty, found => by
      rw [infer] at found ⊢
      exact integer_again position n hint expr ty found
  | .double _ _, _, _, _, found => by rwa [infer] at found ⊢
  | .string position text, hint, expr, ty, found => by
      rw [infer] at found ⊢
      exact string_again position text hint expr ty found
  | .var _ _, _, _, _, found => by rwa [infer] at found ⊢
  | .call _ _ _, _, _, _, found => by rwa [infer] at found ⊢
  | .tuple position items, hint, expr, ty, found => by
      obtain ⟨exprs, types, each, rfl, rfl⟩ := (infer_tuple_iff _ _ _ _ _).mp found
      refine (infer_tuple_iff _ _ _ _ _).mpr ⟨exprs, types, ?_, rfl, rfl⟩
      obtain ⟨counted, again⟩ := inferTuple_again items _ exprs types each
      rwa [tupleHints, if_pos counted]
  | .array position items, hint, expr, ty, found => by
      obtain ⟨exprs, element, each, rfl, rfl⟩ := (infer_array_iff _ _ _ _ _).mp found
      refine (infer_array_iff _ _ _ _ _).mpr ⟨exprs, element, ?_, rfl, rfl⟩
      exact inferItems_again items _ exprs element each
  | .dict position entries, hint, expr, ty, found => by
      obtain ⟨pairs, key, value, each, basic, rfl, rfl⟩ := (infer_dict_iff _ _ _ _ _).mp found
      refine (infer_dict_iff _ _ _ _ _).mpr ⟨pairs, key, value, ?_, basic, rfl, rfl⟩
      exact inferEntries_again entries _ _ pairs key value each
  | .variant _ _, _, _, _, found => by rwa [infer] at found ⊢
  | .annotated _ _ _, _, _, _, found => by rwa [infer] at found ⊢
  | .choice _ [], _, _, _, found => by
      rw [infer] at found
      cases found
  | .choice _ (first :: others), hint, expr, ty, found => by
      obtain ⟨head, tail, inferred, alternatives, rfl⟩ := (infer_choice_iff _ _ _ _ _ _).mp found
      exact (infer_choice_iff _ _ _ _ _ _).mpr
        ⟨head, tail, infer_again first hint head ty inferred, alternatives, rfl⟩
  | .not _ _, _, _, _, found => by rwa [infer] at found ⊢
  | .negate position operand, hint, expr, ty, found => by
      rw [infer_negate] at found ⊢
      split at found
      · exact integer_again position _ hint expr ty found
      · exact found
      · obtain ⟨⟨inner, own⟩, inferred, made⟩ := (except_bind_ok_iff _ _ _).mp found
        obtain ⟨-, -, rfl⟩ := (negated_ok_iff _ _ _ _ _).mp made
        exact (except_bind_ok_iff _ _ _).mpr
          ⟨(inner, ty), infer_again operand hint inner ty inferred, made⟩
  | .binary position op lhs rhs, hint, expr, ty, found => by
      by_cases logical : op = .and ∨ op = .or
      · rw [infer, if_pos logical] at found ⊢
        exact found
      · have strict := not_or.mp logical
        obtain ⟨left, right, own, operands, made⟩ :=
          (infer_binary_iff _ _ strict _ _ _ _ _).mp found
        refine (infer_binary_iff _ _ strict _ _ _ _ _).mpr ⟨left, right, own, ?_, made⟩
        -- The operands of a comparison have no hint, and those of arithmetic have that of
        -- the result.
        cases comparison : op.isComparison with
        | true => simpa only [operandHint, comparison, ↓reduceIte] using operands
        | false =>
            obtain ⟨-, -, rfl⟩ := made
            simp only [operandHint, comparison, Bool.false_eq_true, ↓reduceIte] at operands ⊢
            exact operands_again lhs rhs hint left right own (infer_again lhs hint left own)
              (infer_again rhs hint right own) operands

theorem inferTuple_again : (raws : List Surface.Expr) → (hints : List Ty) → (items : List Expr) →
    (types : List Ty) → inferTuple table scope hints raws = .ok (items, types) →
      types.length = raws.length ∧ inferTuple table scope types raws = .ok (items, types)
  | [], _, _, _, found => by
      rw [inferTuple] at found
      obtain ⟨rfl, rfl⟩ := Prod.mk.inj (Except.ok.inj found)
      exact ⟨rfl, rfl⟩
  | raw :: rest, hints, _, _, found => by
      simp only [inferTuple, except_bind_ok_iff] at found
      obtain ⟨⟨item, ty⟩, first, ⟨items, types⟩, others, answered⟩ := found
      obtain ⟨rfl, rfl⟩ := Prod.mk.inj (Except.ok.inj answered)
      obtain ⟨counted, again⟩ := inferTuple_again rest _ items types others
      refine ⟨congrArg Nat.succ counted, ?_⟩
      simp only [inferTuple, except_bind_ok_iff]
      exact ⟨(item, ty), infer_again raw _ item ty first, (items, types), again, rfl⟩

theorem inferItems_again : (raws : List Surface.Expr) → (hint : Option Ty) → (items : List Expr) →
    (element : Ty) → inferItems table scope hint raws = .ok (items, some element) →
      inferItems table scope (some element) raws = .ok (items, some element)
  | [], _, _, _, found => by
      rw [inferItems] at found ⊢
      obtain ⟨rfl, -⟩ := Prod.mk.inj (Except.ok.inj found)
      rfl
  | raw :: rest, hint, _, element, found => by
      simp only [inferItems, except_bind_ok_iff] at found
      obtain ⟨⟨item, element'⟩, first, ⟨items, final⟩, others, answered⟩ := found
      obtain ⟨rfl, rfl⟩ := Prod.mk.inj (Except.ok.inj answered)
      obtain ⟨own, rfl, inferred, -⟩ := slot_ok _ _ _ _ _ _ first
      -- The first item fixes the type, which is that of the array in the end.
      obtain rfl := Option.some.inj ((inferItems_typed rest (some own) items _ others).1 own rfl)
      simp only [inferItems, except_bind_ok_iff]
      refine ⟨(item, some element), ?_, (items, some element), others, rfl⟩
      rw [infer_again raw hint item element inferred]
      exact slot_again _ _ element item

theorem inferEntries_again : (raws : List (Surface.Expr × Surface.Expr)) →
    (hintKey hintValue : Option Ty) → (entries : List (Expr × Expr)) → (key value : Ty) →
    inferEntries table scope hintKey hintValue raws = .ok (entries, some key, some value) →
      inferEntries table scope (some key) (some value) raws = .ok (entries, some key, some value)
  | [], _, _, _, _, _, found => by
      rw [inferEntries] at found ⊢
      obtain ⟨rfl, -⟩ := Prod.mk.inj (Except.ok.inj found)
      rfl
  | (rawKey, rawValue) :: rest, hintKey, hintValue, _, key, value, found => by
      simp only [inferEntries, except_bind_ok_iff] at found
      obtain ⟨⟨k, key'⟩, first, ⟨v, value'⟩, second, ⟨entries, finalKey, finalValue⟩, others,
        answered⟩ := found
      obtain ⟨rfl, types⟩ := Prod.mk.inj (Except.ok.inj answered)
      obtain ⟨rfl, rfl⟩ := Prod.mk.inj types
      obtain ⟨ownKey, rfl, keyInferred, -⟩ := slot_ok _ _ _ _ _ _ first
      obtain ⟨ownValue, rfl, valueInferred, -⟩ := slot_ok _ _ _ _ _ _ second
      obtain ⟨keyFixed, valueFixed, -⟩ :=
        inferEntries_typed rest (some ownKey) (some ownValue) entries _ _ others
      obtain rfl := Option.some.inj (keyFixed ownKey rfl)
      obtain rfl := Option.some.inj (valueFixed ownValue rfl)
      simp only [inferEntries, except_bind_ok_iff]
      refine ⟨(k, some key), ?_, (v, some value), ?_, (entries, some key, some value), others, rfl⟩
      · rw [infer_again rawKey hintKey k key keyInferred]
        exact slot_again _ _ key k
      · rw [infer_again rawValue hintValue v value valueInferred]
        exact slot_again _ _ value v
end

theorem infer_objectPath : (raw : Surface.Expr) → (hint : Option Ty) → (expr : Expr) →
    infer table scope none raw = .ok (expr, .objectPath) →
      infer table scope hint raw = .ok (expr, .objectPath)
  | .var _ _, _, _, found => by rwa [infer] at found ⊢
  | .call _ _ _, _, _, found => by rwa [infer] at found ⊢
  | .annotated _ _ _, _, _, found => by rwa [infer] at found ⊢
  | .choice _ (first :: others), hint, expr, found => by
      obtain ⟨head, tail, inferred, alternatives, rfl⟩ := (infer_choice_iff _ _ _ _ _ _).mp found
      exact (infer_choice_iff _ _ _ _ _ _).mpr
        ⟨head, tail, infer_objectPath first hint head inferred, alternatives, rfl⟩
  -- Expressions of any other form have another type.
  | .bool _ _, _, _, found => by
      rw [infer] at found
      cases found
  | .integer _ _, _, _, found => by
      rw [infer] at found
      obtain ⟨-, literal, made, -⟩ := (integer_ok_iff _ _ _ _ _).mp found
      cases made
  | .double _ _, _, _, found => by
      rw [infer] at found
      cases found
  | .string _ _, _, _, found => by
      rw [infer] at found
      cases found
  | .tuple _ _, _, _, found => by
      obtain ⟨_, _, _, _, same⟩ := (infer_tuple_iff _ _ _ _ _).mp found
      cases same
  | .array _ _, _, _, found => by
      obtain ⟨_, _, _, _, same⟩ := (infer_array_iff _ _ _ _ _).mp found
      cases same
  | .dict _ _, _, _, found => by
      obtain ⟨_, _, _, _, _, _, same⟩ := (infer_dict_iff _ _ _ _ _).mp found
      cases same
  | .variant _ _, _, _, found => by
      rw [infer] at found
      obtain ⟨_, _, answered⟩ := (except_bind_ok_iff _ _ _).mp found
      cases answered
  | .choice _ [], _, _, found => by
      rw [infer] at found
      cases found
  | .not _ _, _, _, found => by
      rw [infer] at found
      obtain ⟨_, _, answered⟩ := (except_bind_ok_iff _ _ _).mp found
      cases answered
  | .negate _ operand, _, _, found => by
      rw [infer_negate] at found
      split at found
      · obtain ⟨-, literal, made, -⟩ := (integer_ok_iff _ _ _ _ _).mp found
        cases made
      · cases found
      · obtain ⟨_, _, made⟩ := (except_bind_ok_iff _ _ _).mp found
        obtain ⟨numeric, -, -⟩ := (negated_ok_iff _ _ _ _ _).mp made
        cases numeric
  | .binary _ op lhs rhs, _, _, found => by
      by_cases logical : op = .and ∨ op = .or
      · rw [infer, if_pos logical] at found
        obtain ⟨_, _, rest⟩ := (except_bind_ok_iff _ _ _).mp found
        obtain ⟨_, _, answered⟩ := (except_bind_ok_iff _ _ _).mp rest
        cases answered
      · have strict := not_or.mp logical
        obtain ⟨_, _, own, _, supported, _, same⟩ :=
          (infer_binary_iff _ _ strict _ _ _ _ _).mp found
        cases op <;> cases same <;> cases supported

theorem infer_annotated (position : Position) (raw : Surface.Expr) (hint : Option Ty) (expr : Expr)
    (ty : Ty) (found : infer table scope none raw = .ok (expr, ty)) :
    infer table scope hint (.annotated position ty raw) = .ok (expr, ty) := by
  rw [infer]
  split
  · next path =>
      subst path
      rw [infer_objectPath raw _ expr found]
      rfl
  · rw [infer_again raw none expr ty found]
    exact (except_bind_ok_iff _ _ _).mpr ⟨expr, (expect_ok_iff _ _ _ _ _).mpr rfl, rfl⟩

/-- An expression that has a type by itself is the same expression of the same type where this
type is wanted, and behind an annotation with it, whatever is wanted there. -/
theorem infer_ownType (table : BuiltinTable) (scope : Scope) (raw : Surface.Expr) (expr : Expr)
    (ty : Ty) (found : infer table scope none raw = .ok (expr, ty)) :
    infer table scope (some ty) raw = .ok (expr, ty) ∧
      ∀ position hint, infer table scope hint (.annotated position ty raw) = .ok (expr, ty) :=
  ⟨infer_again raw none expr ty found,
    fun position hint => infer_annotated position raw hint expr ty found⟩

def storeScope : Scope where
  data := some [("place", .objectPath), ("count", .int .byte)]
  locals := []

def somePlace : Surface.Expr :=
  .choice ⟨1, 1⟩ [.annotated ⟨1, 8⟩ .objectPath (.string ⟨1, 11⟩ "/attic"), .var ⟨1, 21⟩ "place"]

def somePlaceTyped : Expr :=
  .choice [.literal (.objectPath "/attic"), .var "place" .objectPath]

theorem somePlace_ownType :
    infer Builtin.standard storeScope none somePlace = .ok (somePlaceTyped, .objectPath) ∧
      infer Builtin.standard storeScope (some .objectPath) somePlace =
        .ok (somePlaceTyped, .objectPath) ∧
      infer Builtin.standard storeScope (some .string) (.annotated ⟨1, 1⟩ .objectPath somePlace) =
        .ok (somePlaceTyped, .objectPath) := by
  have found : infer Builtin.standard storeScope none somePlace =
      .ok (somePlaceTyped, .objectPath) := by rfl
  obtain ⟨hinted, annotated⟩ :=
    infer_ownType Builtin.standard storeScope somePlace somePlaceTyped .objectPath found
  exact ⟨found, hinted, annotated ⟨1, 1⟩ (some .string)⟩

end SimBus.Typing
