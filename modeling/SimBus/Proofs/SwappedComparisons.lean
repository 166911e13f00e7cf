import SimBus.Proofs.OwnTypes
/-!
Comparisons with their operands swapped. One operand is typed by itself and the other is wanted
to have its type, so the order matters where an operand takes a type that it does not have by
itself. It never matters for the outcome of comparisons that are accepted both ways round: of
the types that one expression could have, the one it has by itself comes first in a fixed order,
so two operands cannot each take the type that the other has by itself unless the types are one.
-/

namespace SimBus

namespace BinaryOp

def swapped : BinaryOp → BinaryOp
  | lt => gt
  | gt => lt
  | le => ge
  | ge => le
  | op => op

theorem swapped_swapped (op : BinaryOp) : op.swapped.swapped = op := by
  cases op <;> rfl

theorem isComparison_swapped (op : BinaryOp) : op.swapped.isComparison = op.isComparison := by
  cases op <;> rfl

theorem strict_of_isComparison (op : BinaryOp) (comparison : op.isComparison = true) :
    op ≠ .and ∧ op ≠ .or := by
  cases op <;> simp_all [isComparison]

end BinaryOp

namespace Ty

mutual
/-- Where a type stands among the types that one expression could have. -/
def rank : Ty → Nat
  | int .int32 => 0
  | int .int64 => 1
  | int .uint64 => 2
  | int _ | double => 3
  | string => 0
  | objectPath => 1
  | bool | variant => 0
  | array element => rank element
  | tuple members => rankOfList members
  | dict key value => rank key + rank value

def rankOfList : List Ty → Nat
  | [] => 0
  | ty :: rest => rank ty + rankOfList rest
end

def Precedes (a b : Ty) : Prop := a = b ∨ a.rank < b.rank

theorem precedes_antisymm (a b : Ty) (forth : a.Precedes b) (back : b.Precedes a) : a = b := by
  rcases forth with same | above
  · exact same
  · rcases back with same | below
    · exact same.symm
    · omega

theorem precedes_dict (k v l w : Ty) (keys : k.Precedes l) (values : v.Precedes w) :
    (dict k v).Precedes (dict l w) := by
  rcases keys with rfl | keysRise <;> rcases values with rfl | valuesRise
  · exact .inl rfl
  all_goals
    refine .inr ?_
    simp only [rank]
    omega

theorem precedes_array (a b : Ty) (elements : a.Precedes b) : (array a).Precedes (array b) :=
  elements.imp (congrArg array) id

theorem precedes_tuple (a b : Ty) (as bs : List Ty) (first : a.Precedes b)
    (others : (tuple as).Precedes (tuple bs)) : (tuple (a :: as)).Precedes (tuple (b :: bs)) := by
  rcases first with rfl | firstRises <;> rcases others with same | othersRise
  · obtain rfl := tuple.inj same
    exact .inl rfl
  · refine .inr ?_
    simp only [rank, rankOfList] at othersRise ⊢
    omega
  · obtain rfl := tuple.inj same
    refine .inr ?_
    simp only [rank, rankOfList]
    omega
  · refine .inr ?_
    simp only [rank, rankOfList] at othersRise ⊢
    omega

end Ty

namespace Typing

variable {table : BuiltinTable} {scope : Scope}

theorem infer_negate_other (position : Position) (operand : Surface.Expr) (hint : Option Ty)
    (notInteger : ∀ pos n, operand ≠ .integer pos n)
    (notDouble : ∀ pos x, operand ≠ .double pos x) :
    infer table scope hint (.negate position operand) =
      infer table scope hint operand >>= negated position := by
  rw [infer_negate]
  split
  · exact absurd rfl (notInteger _ _)
  · exact absurd rfl (notDouble _ _)
  · rfl

/-! The type that an expression has by itself comes first. -/

theorem ofInt_int_ok (kind : IntKind) (value : Int) (literal : Value)
    (made : Value.ofInt (.int kind) value = .ok literal) : (kind.number? value).isSome = true := by
  simp only [Value.ofInt] at made
  split at made
  · next number fits => rw [fits, Option.isSome_some]
  · cases made

theorem defaultType?_precedes (value : Int) (own other : Ty) (literal : Value)
    (default : defaultType? value = some own) (made : Value.ofInt other value = .ok literal) :
    own.Precedes other := by
  obtain ⟨kind, first, rfl⟩ := Option.map_eq_some_iff.mp default
  have listed := List.mem_of_find?_eq_some first
  simp only [List.mem_cons, List.not_mem_nil, or_false] at listed
  cases other with
  | int kind' =>
      have fits := ofInt_int_ok kind' value literal made
      -- The kinds that come earlier do not hold the number, or one of them would be the default.
      rcases listed with rfl | rfl | rfl <;> cases kind' <;>
        first | exact .inl rfl | exact .inr (by decide) | grind [List.find?]
  | double => rcases listed with rfl | rfl | rfl <;> exact .inr (by decide)
  | _ => cases made

theorem integer_precedes (position : Position) (value : Int) (first second : Expr) (own other : Ty)
    (found : integer position value none = .ok (first, own))
    (adopted : integer position value (some other) = .ok (second, other)) :
    own.Precedes other := by
  obtain ⟨default, -⟩ := (integer_ok_iff _ _ _ _ _).mp found
  obtain ⟨-, literal, made, -⟩ := (integer_ok_iff _ _ _ _ _).mp adopted
  exact defaultType?_precedes value own other literal default made

theorem string_precedes (position : Position) (text : String) (first second : Expr) (own other : Ty)
    (found : string position text none = .ok (first, own))
    (adopted : string position text (some other) = .ok (second, other)) : own.Precedes other := by
  obtain ⟨-, rfl⟩ := Prod.mk.inj (Except.ok.inj found)
  unfold string at adopted
  split at adopted
  · next path =>
      obtain rfl := Option.some.inj path
      exact .inr (by decide)
  · exact .inl (Prod.mk.inj (Except.ok.inj adopted)).2

theorem precedes_of_unhinted (raw : Surface.Expr) (first second : Expr) (own other : Ty)
    (unhinted : infer table scope (some other) raw = infer table scope none raw)
    (found : infer table scope none raw = .ok (first, own))
    (adopted : infer table scope (some other) raw = .ok (second, other)) : own.Precedes other := by
  rw [unhinted, found] at adopted
  exact .inl (Prod.mk.inj (Except.ok.inj adopted)).2

theorem operands_precede (lhs rhs : Surface.Expr) (left right left' right' : Expr) (own other : Ty)
    (ofLeft : infer table scope none lhs = .ok (left, own) →
      infer table scope (some other) lhs = .ok (left', other) → own.Precedes other)
    (ofRight : infer table scope none rhs = .ok (right, own) →
      infer table scope (some other) rhs = .ok (right', other) → own.Precedes other)
    (found : Operands table scope none lhs rhs left right own)
    (adopted : Operands table scope (some other) lhs rhs left' right' other) :
    own.Precedes other := by
  unfold Operands at found adopted
  split at found
  · next rightFirst =>
      rw [if_pos rightFirst] at adopted
      exact ofRight found.1 adopted.1
  · next leftFirst =>
      rw [if_neg leftFirst] at adopted
      exact ofLeft found.1 adopted.1

mutual
theorem infer_precedes : (raw : Surface.Expr) → (first second : Expr) → (own other : Ty) →
    infer table scope none raw = .ok (first, own) →
      infer table scope (some other) raw = .ok (second, other) → own.Precedes other
  | .bool _ _, _, _, _, _, found, adopted =>
      precedes_of_unhinted _ _ _ _ _ (by rw [infer, infer]) found adopted
  | .integer position n, first, second, own, other, found, adopted => by
      rw [infer] at found adopted
      exact integer_precedes position n first second own other found adopted
  | .double _ _, _, _, _, _, found, adopted =>
      precedes_of_unhinted _ _ _ _ _ (by rw [infer, infer]) found adopted
  | .string position text, first, second, own, other, found, adopted => by
      rw [infer] at found adopted
      exact string_precedes position text first second own other found adopted
  | .var _ _, _, _, _, _, found, adopted =>
      precedes_of_unhinted _ _ _ _ _ (by rw [infer, infer]) found adopted
  | .call _ _ _, _, _, _, _, found, adopted =>
      precedes_of_unhinted _ _ _ _ _ (by rw [infer, infer]) found adopted
  | .tuple _ items, _, _, _, _, found, adopted => by
      obtain ⟨exprs, types, each, rfl, rfl⟩ := (infer_tuple_iff _ _ _ _ _).mp found
      obtain ⟨exprs', types', each', rfl, rfl⟩ := (infer_tuple_iff _ _ _ _ _).mp adopted
      have again := (inferTuple_again items _ exprs' types' each').2
      exact inferTuple_precedes items exprs exprs' types types' each again
  | .array _ items, _, _, _, _, found, adopted => by
      obtain ⟨exprs, own, each, rfl, rfl⟩ := (infer_array_iff _ _ _ _ _).mp found
      obtain ⟨exprs', other, each', rfl, same⟩ := (infer_array_iff _ _ _ _ _).mp adopted
      subst same
      exact Ty.precedes_array own other
        (inferItems_precedes items exprs exprs' own other each each')
  | .dict _ entries, _, _, _, _, found, adopted => by
      obtain ⟨pairs, key, value, each, -, rfl, rfl⟩ := (infer_dict_iff _ _ _ _ _).mp found
      obtain ⟨pairs', key', value', each', -, rfl, same⟩ := (infer_dict_iff _ _ _ _ _).mp adopted
      subst same
      obtain ⟨keys, values⟩ :=
        inferEntries_precedes entries pairs pairs' key value key' value' each each'
      exact Ty.precedes_dict key value key' value' keys values
  | .variant _ _, _, _, _, _, found, adopted =>
      precedes_of_unhinted _ _ _ _ _ (by rw [infer, infer]) found adopted
  | .annotated _ _ _, _, _, _, _, found, adopted =>
      precedes_of_unhinted _ _ _ _ _ (by rw [infer, infer]) found adopted
  | .choice _ [], _, _, _, _, found, _ => by
      rw [infer] at found
      cases found
  | .choice _ (first :: others), _, _, own, other, found, adopted => by
      obtain ⟨head, _, inferred, -, -⟩ := (infer_choice_iff _ _ _ _ _ _).mp found
      obtain ⟨head', _, inferred', -, -⟩ := (infer_choice_iff _ _ _ _ _ _).mp adopted
      exact infer_precedes first head head' own other inferred inferred'
  | .not _ _, _, _, _, _, found, adopted =>
      precedes_of_unhinted _ _ _ _ _ (by rw [infer, infer]) found adopted
  | .negate position operand, first, second, own, other, found, adopted => by
      rw [infer_negate] at found
      split at found
      · rw [infer] at adopted
        exact integer_precedes position _ first second own other found adopted
      · rw [infer] at adopted
        obtain ⟨-, rfl⟩ := Prod.mk.inj (Except.ok.inj found)
        exact .inl (Prod.mk.inj (Except.ok.inj adopted)).2
      · next notInteger notDouble =>
          rw [infer_negate_other position operand _ notInteger notDouble] at adopted
          obtain ⟨⟨inner, _⟩, inferred, made⟩ := (except_bind_ok_iff _ _ _).mp found
          obtain ⟨⟨inner', _⟩, inferred', made'⟩ := (except_bind_ok_iff _ _ _).mp adopted
          obtain ⟨-, -, rfl⟩ := (negated_ok_iff _ _ _ _ _).mp made
          obtain ⟨-, -, rfl⟩ := (negated_ok_iff _ _ _ _ _).mp made'
          exact infer_precedes operand inner inner' _ _ inferred inferred'
  | .binary position op lhs rhs, _, _, own, other, found, adopted => by
      by_cases logical : op = .and ∨ op = .or
      · have unhinted : infer table scope (some other) (.binary position op lhs rhs) =
            infer table scope none (.binary position op lhs rhs) := by
          rw [infer, infer, if_pos logical, if_pos logical]
        exact precedes_of_unhinted _ _ _ _ _ unhinted found adopted
      · have strict := not_or.mp logical
        obtain ⟨left, right, ty, operands, -, -, result⟩ :=
          (infer_binary_iff _ _ strict _ _ _ _ _).mp found
        obtain ⟨left', right', ty', operands', -, -, result'⟩ :=
          (infer_binary_iff _ _ strict _ _ _ _ _).mp adopted
        cases comparison : op.isComparison with
        | true =>
            rw [comparison] at result result'
            exact .inl (result.trans result'.symm)
        | false =>
            simp only [comparison, Bool.false_eq_true, ↓reduceIte] at result result'
            subst result result'
            simp only [operandHint, comparison, Bool.false_eq_true, ↓reduceIte]
              at operands operands'
            exact operands_precede lhs rhs left right left' right' own other
              (infer_precedes lhs left left' own other) (infer_precedes rhs right right' own other)
              operands operands'

theorem inferTuple_precedes : (raws : List Surface.Expr) → (items items' : List Expr) →
    (own other : List Ty) → inferTuple table scope [] raws = .ok (items, own) →
      inferTuple table scope other raws = .ok (items', other) →
        (Ty.tuple own).Precedes (.tuple other)
  | [], _, _, _, _, found, adopted => by
      rw [inferTuple] at found adopted
      obtain ⟨-, rfl⟩ := Prod.mk.inj (Except.ok.inj found)
      exact .inl (congrArg Ty.tuple (Prod.mk.inj (Except.ok.inj adopted)).2)
  | raw :: rest, _, _, _, _, found, adopted => by
      simp only [inferTuple, except_bind_ok_iff] at found adopted
      obtain ⟨⟨item, ty⟩, first, ⟨items, types⟩, others, answered⟩ := found
      obtain ⟨⟨item', ty'⟩, first', ⟨items', types'⟩, others', answered'⟩ := adopted
      obtain ⟨-, rfl⟩ := Prod.mk.inj (Except.ok.inj answered)
      obtain ⟨-, rfl⟩ := Prod.mk.inj (Except.ok.inj answered')
      exact Ty.precedes_tuple ty ty' types types'
        (infer_precedes raw item item' ty ty' first first')
        (inferTuple_precedes rest items items' types types' others others')

theorem inferItems_precedes : (raws : List Surface.Expr) → (items items' : List Expr) →
    (own other : Ty) → inferItems table scope none raws = .ok (items, some own) →
      inferItems table scope (some other) raws = .ok (items', some other) → own.Precedes other
  | [], _, _, _, _, found, _ => by
      rw [inferItems] at found
      cases found
  | raw :: rest, _, _, own, other, found, adopted => by
      simp only [inferItems, except_bind_ok_iff] at found adopted
      obtain ⟨⟨item, _⟩, first, ⟨items, _⟩, others, answered⟩ := found
      obtain ⟨⟨item', _⟩, first', -⟩ := adopted
      obtain ⟨-, rfl⟩ := Prod.mk.inj (Except.ok.inj answered)
      obtain ⟨ty, rfl, inferred, -⟩ := slot_ok _ _ _ _ _ _ first
      obtain ⟨ty', -, inferred', kept⟩ := slot_ok _ _ _ _ _ _ first'
      obtain rfl := kept other rfl
      obtain rfl := Option.some.inj ((inferItems_typed rest (some ty) items _ others).1 ty rfl)
      exact infer_precedes raw item item' own other inferred inferred'

theorem inferEntries_precedes : (raws : List (Surface.Expr × Surface.Expr)) →
    (entries entries' : List (Expr × Expr)) → (key value key' value' : Ty) →
    inferEntries table scope none none raws = .ok (entries, some key, some value) →
      inferEntries table scope (some key') (some value') raws =
        .ok (entries', some key', some value') → key.Precedes key' ∧ value.Precedes value'
  | [], _, _, _, _, _, _, found, _ => by
      rw [inferEntries] at found
      cases found
  | (rawKey, rawValue) :: rest, _, _, key, value, key', value', found, adopted => by
      simp only [inferEntries, except_bind_ok_iff] at found adopted
      obtain ⟨⟨k, _⟩, first, ⟨v, _⟩, second, ⟨entries, _, _⟩, others, answered⟩ := found
      obtain ⟨⟨k', _⟩, first', ⟨v', _⟩, second', -⟩ := adopted
      obtain ⟨-, types⟩ := Prod.mk.inj (Except.ok.inj answered)
      obtain ⟨rfl, rfl⟩ := Prod.mk.inj types
      obtain ⟨tyK, rfl, keyInferred, -⟩ := slot_ok _ _ _ _ _ _ first
      obtain ⟨tyV, rfl, valueInferred, -⟩ := slot_ok _ _ _ _ _ _ second
      obtain ⟨_, -, keyInferred', keptKey⟩ := slot_ok _ _ _ _ _ _ first'
      obtain ⟨_, -, valueInferred', keptValue⟩ := slot_ok _ _ _ _ _ _ second'
      obtain rfl := keptKey key' rfl
      obtain rfl := keptValue value' rfl
      obtain ⟨keyFixed, valueFixed, -⟩ :=
        inferEntries_typed rest (some tyK) (some tyV) entries _ _ others
      obtain rfl := Option.some.inj (keyFixed tyK rfl)
      obtain rfl := Option.some.inj (valueFixed tyV rfl)
      exact ⟨infer_precedes rawKey k k' key key' keyInferred keyInferred',
        infer_precedes rawValue v v' value value' valueInferred valueInferred'⟩
end

/-! Comparisons. -/

/-- The comparison is accepted, and its operands become these expressions. -/
def Compares (table : BuiltinTable) (scope : Scope) (op : BinaryOp) (lhs rhs : Surface.Expr)
    (left right : Expr) : Prop :=
  ∃ position hint, infer table scope hint (.binary position op lhs rhs) =
    .ok (.binary op left right, .bool)

theorem supports_swapped (op : BinaryOp) (ty : Ty) : supports op.swapped ty = supports op ty := by
  cases op <;> rfl

theorem infer_comparison_iff (position : Position) (op : BinaryOp)
    (comparison : op.isComparison = true) (lhs rhs : Surface.Expr) (hint : Option Ty) (expr : Expr)
    (ty : Ty) :
    infer table scope hint (.binary position op lhs rhs) = .ok (expr, ty) ↔
      ∃ left right found, Operands table scope none lhs rhs left right found ∧
        supports op found = true ∧ expr = .binary op left right ∧ ty = .bool := by
  rw [infer_binary_iff position op (op.strict_of_isComparison comparison)]
  simp only [operandHint, comparison, ↓reduceIte]

theorem compares_iff (op : BinaryOp) (comparison : op.isComparison = true)
    (lhs rhs : Surface.Expr) (left right : Expr) :
    Compares table scope op lhs rhs left right ↔
      ∃ ty, Operands table scope none lhs rhs left right ty ∧ supports op ty = true := by
  constructor
  · rintro ⟨position, hint, accepted⟩
    obtain ⟨_, _, ty, operands, supported, same, -⟩ :=
      (infer_comparison_iff position op comparison lhs rhs hint _ _).mp accepted
    obtain ⟨-, rfl, rfl⟩ := Expr.binary.inj same
    exact ⟨ty, operands, supported⟩
  · rintro ⟨ty, operands, supported⟩
    exact ⟨default, none, (infer_comparison_iff _ op comparison lhs rhs none _ _).mpr
      ⟨left, right, ty, operands, supported, rfl, rfl⟩⟩

def Keeps (table : BuiltinTable) (scope : Scope) (raw : Surface.Expr) (ty : Ty) : Prop :=
  ∀ expr, infer table scope (some ty) raw = .ok (expr, ty) →
    infer table scope none raw = .ok (expr, ty)

/-- Neither operand takes a type from the other that it does not have by itself. -/
structure Independent (table : BuiltinTable) (scope : Scope) (lhs rhs : Surface.Expr) : Prop where
  left : ∀ right ty, infer table scope none rhs = .ok (right, ty) → Keeps table scope lhs ty
  right : ∀ left ty, infer table scope none lhs = .ok (left, ty) → Keeps table scope rhs ty

theorem independent_symm (lhs rhs : Surface.Expr) (independent : Independent table scope lhs rhs) :
    Independent table scope rhs lhs :=
  ⟨independent.right, independent.left⟩

theorem operands_of_open_eq (lhs rhs : Surface.Expr) (alike : isOpen lhs = isOpen rhs)
    (hint : Option Ty) (left right : Expr) (ty : Ty) :
    Operands table scope hint lhs rhs left right ty ↔
      infer table scope hint lhs = .ok (left, ty) ∧
        infer table scope (some ty) rhs = .ok (right, ty) := by
  unfold Operands
  rw [alike, Bool.and_not_self, if_neg Bool.false_ne_true]

theorem operands_swap_of_open_ne (lhs rhs : Surface.Expr) (differ : isOpen lhs ≠ isOpen rhs)
    (hint : Option Ty) (left right : Expr) (ty : Ty)
    (operands : Operands table scope hint lhs rhs left right ty) :
    Operands table scope hint rhs lhs right left ty := by
  unfold Operands at operands ⊢
  cases leftOpen : isOpen lhs <;> cases rightOpen : isOpen rhs <;> simp_all

theorem operands_swap_of_independent (lhs rhs : Surface.Expr) (alike : isOpen lhs = isOpen rhs)
    (independent : Independent table scope lhs rhs) (left right : Expr) (ty : Ty)
    (operands : Operands table scope none lhs rhs left right ty) :
    Operands table scope none rhs lhs right left ty := by
  obtain ⟨ofLeft, ofRight⟩ := (operands_of_open_eq lhs rhs alike none left right ty).mp operands
  refine (operands_of_open_eq rhs lhs alike.symm none right left ty).mpr ⟨?_, ?_⟩
  · exact independent.right left ty ofLeft right ofRight
  · exact infer_again lhs none left ty ofLeft

theorem operands_det (lhs rhs : Surface.Expr) (hint : Option Ty) (left right left' right' : Expr)
    (ty ty' : Ty) (one : Operands table scope hint lhs rhs left right ty)
    (other : Operands table scope hint lhs rhs left' right' ty') :
    left' = left ∧ right' = right := by
  unfold Operands at one other
  split at one
  · next rightFirst =>
      rw [if_pos rightFirst, one.1] at other
      obtain ⟨rfl, rfl⟩ := Prod.mk.inj (Except.ok.inj other.1)
      rw [one.2] at other
      exact ⟨(Prod.mk.inj (Except.ok.inj other.2)).1.symm, rfl⟩
  · next leftFirst =>
      rw [if_neg leftFirst, one.1] at other
      obtain ⟨rfl, rfl⟩ := Prod.mk.inj (Except.ok.inj other.1)
      rw [one.2] at other
      exact ⟨rfl, (Prod.mk.inj (Except.ok.inj other.2)).1.symm⟩

/-- Operands that are accepted in both orders become the same expressions in both. -/
theorem operands_unique (lhs rhs : Surface.Expr) (left right left' right' : Expr) (ty ty' : Ty)
    (forth : Operands table scope none lhs rhs left right ty)
    (back : Operands table scope none rhs lhs right' left' ty') :
    left' = left ∧ right' = right := by
  by_cases alike : isOpen lhs = isOpen rhs
  · obtain ⟨ofLeft, wantedRight⟩ := (operands_of_open_eq lhs rhs alike _ _ _ _).mp forth
    obtain ⟨ofRight, wantedLeft⟩ := (operands_of_open_eq rhs lhs alike.symm _ _ _ _).mp back
    -- Each operand has taken the type that the other one has by itself.
    obtain rfl := Ty.precedes_antisymm ty ty'
      (infer_precedes lhs left left' ty ty' ofLeft wantedLeft)
      (infer_precedes rhs right' right ty' ty ofRight wantedRight)
    rw [infer_again lhs none left ty ofLeft] at wantedLeft
    rw [infer_again rhs none right' ty ofRight] at wantedRight
    exact ⟨(Prod.mk.inj (Except.ok.inj wantedLeft)).1.symm,
      (Prod.mk.inj (Except.ok.inj wantedRight)).1⟩
  · have forth' := operands_swap_of_open_ne rhs lhs (Ne.symm alike) none right' left' ty' back
    exact operands_det lhs rhs none left right left' right' ty ty' forth forth'

theorem compares_unique (op : BinaryOp) (comparison : op.isComparison = true)
    (lhs rhs : Surface.Expr) (left right left' right' : Expr)
    (forth : Compares table scope op lhs rhs left right)
    (back : Compares table scope op.swapped rhs lhs right' left') :
    left' = left ∧ right' = right := by
  have comparison' := op.isComparison_swapped.trans comparison
  obtain ⟨ty, operands, -⟩ := (compares_iff op comparison _ _ _ _).mp forth
  obtain ⟨ty', operands', -⟩ := (compares_iff op.swapped comparison' _ _ _ _).mp back
  exact operands_unique lhs rhs left right left' right' ty ty' operands operands'

theorem compares_swap (op : BinaryOp) (comparison : op.isComparison = true)
    (lhs rhs : Surface.Expr) (left right : Expr)
    (symmetric : isOpen lhs ≠ isOpen rhs ∨ Independent table scope lhs rhs)
    (forth : Compares table scope op lhs rhs left right) :
    Compares table scope op.swapped rhs lhs right left := by
  have comparison' := op.isComparison_swapped.trans comparison
  obtain ⟨ty, operands, supported⟩ := (compares_iff op comparison _ _ _ _).mp forth
  refine (compares_iff op.swapped comparison' _ _ _ _).mpr
    ⟨ty, ?_, (supports_swapped op ty).trans supported⟩
  by_cases alike : isOpen lhs = isOpen rhs
  · have independent := symmetric.resolve_left (not_not_intro alike)
    exact operands_swap_of_independent lhs rhs alike independent left right ty operands
  · exact operands_swap_of_open_ne lhs rhs alike none left right ty operands

/-- What an accepted comparison becomes does not depend on where it stands. If it is accepted
with its operands in either order, each operand becomes the same expression in both. And it is
accepted in one order if it is in the other, provided that the form of just one operand leaves
its type open, or that neither takes a type from the other that it does not have by itself. -/
theorem comparison_swaps (table : BuiltinTable) (scope : Scope) (op : BinaryOp)
    (comparison : op.isComparison = true) (lhs rhs : Surface.Expr) :
    (∀ position hint expr ty,
      infer table scope hint (.binary position op lhs rhs) = .ok (expr, ty) ↔
        ∃ left right, Compares table scope op lhs rhs left right ∧
          expr = .binary op left right ∧ ty = .bool) ∧
      (∀ left right left' right', Compares table scope op lhs rhs left right →
        Compares table scope op.swapped rhs lhs right' left' → left' = left ∧ right' = right) ∧
      (isOpen lhs ≠ isOpen rhs ∨ Independent table scope lhs rhs → ∀ left right,
        Compares table scope op lhs rhs left right ↔
          Compares table scope op.swapped rhs lhs right left) := by
  refine ⟨?_, compares_unique op comparison lhs rhs, ?_⟩
  · intro position hint expr ty
    simp only [infer_comparison_iff position op comparison, compares_iff op comparison]
    constructor
    · rintro ⟨left, right, found, operands, supported, shape⟩
      exact ⟨left, right, ⟨found, operands, supported⟩, shape⟩
    · rintro ⟨left, right, ⟨found, operands, supported⟩, shape⟩
      exact ⟨left, right, found, operands, supported, shape⟩
  · intro symmetric left right
    refine ⟨compares_swap op comparison lhs rhs left right symmetric, fun back => ?_⟩
    have comparison' := op.isComparison_swapped.trans comparison
    have forth := compares_swap op.swapped comparison' rhs lhs right left
      (symmetric.imp Ne.symm (independent_symm lhs rhs)) back
    rwa [op.swapped_swapped] at forth

theorem somePlace_swaps :
    BinaryOp.isComparison .ne = true ∧
      Compares Builtin.standard storeScope .ne somePlace (.var ⟨1, 30⟩ "place") somePlaceTyped
        (.var "place" .objectPath) ∧
      Compares Builtin.standard storeScope .ne (.var ⟨1, 30⟩ "place") somePlace
        (.var "place" .objectPath) somePlaceTyped := by
  have forth : Compares Builtin.standard storeScope .ne somePlace (.var ⟨1, 30⟩ "place")
      somePlaceTyped (.var "place" .objectPath) := ⟨⟨1, 1⟩, none, rfl⟩
  have independent : Independent Builtin.standard storeScope somePlace (.var ⟨1, 30⟩ "place") :=
    ⟨fun _ _ _ _ found => found, fun _ _ _ _ found => found⟩
  obtain ⟨-, -, swaps⟩ := comparison_swaps Builtin.standard storeScope .ne rfl somePlace
    (.var ⟨1, 30⟩ "place")
  exact ⟨rfl, forth, (swaps (.inr independent) _ _).mp forth⟩

/-- Two bare numbers: the left one has the type `i` by itself, unless it is too great for that,
and the right one may be. -/
theorem numbers_unswapped :
    (∃ left right, Compares Builtin.standard storeScope .eq (.integer ⟨1, 1⟩ 5000000000)
        (.integer ⟨1, 15⟩ 1) left right) ∧
      ¬ ∃ left right, Compares Builtin.standard storeScope .eq (.integer ⟨1, 15⟩ 1)
        (.integer ⟨1, 1⟩ 5000000000) left right := by
  constructor
  · exact ⟨_, _, ⟨1, 1⟩, none, rfl⟩
  · rintro ⟨left, right, position, hint, accepted⟩
    cases accepted

end Typing

end SimBus
