import SimBus.Proofs.ExprTypes
import SimBus.Proofs.Resolved
/-!
Inference finds types that expressions have. Hints go down and types come up,
and wherever a hint is taken over, the expression is checked to have that type.
-/

namespace SimBus.Typing

theorem expect_ok_iff (position : Position) (context : String) (ty : Ty) (found : Result Typed)
    (expr : Expr) : expect position context ty found = .ok expr ↔ found = .ok (expr, ty) := by
  cases found with
  | error e => simp [expect, bind, Except.bind]
  | ok typed =>
      obtain ⟨expr', ty'⟩ := typed
      by_cases same : ty' = ty
      · simp [expect, same, bind, Except.bind, pure, Except.pure]
      · simp [expect, same, bind, Except.bind, fail]

theorem slot_ok (position : Position) (context : String) (ty final : Option Ty)
    (found : Result Typed) (expr : Expr)
    (accepted : slot position context ty found = .ok (expr, final)) :
    ∃ t, final = some t ∧ found = .ok (expr, t) ∧ ∀ u, ty = some u → u = t := by
  cases ty with
  | none =>
      obtain ⟨⟨expr', t⟩, here, answered⟩ := (except_bind_ok_iff _ _ _).mp accepted
      obtain ⟨rfl, rfl⟩ := Prod.mk.inj (Except.ok.inj answered)
      exact ⟨t, rfl, here, fun u none => by cases none⟩
  | some t =>
      obtain ⟨expr', here, answered⟩ := (except_bind_ok_iff _ _ _).mp accepted
      obtain ⟨rfl, rfl⟩ := Prod.mk.inj (Except.ok.inj answered)
      exact ⟨t, rfl, (expect_ok_iff _ _ _ _ _).mp here, fun u same => (Option.some.inj same).symm⟩

variable {table : BuiltinTable} {scope : Scope}

theorem integer_typed (position : Position) (value : Int) (hint : Option Ty) (expr : Expr) (ty : Ty)
    (accepted : integer position value hint = .ok (expr, ty)) : HasType table scope expr ty := by
  simp only [integer] at accepted
  split at accepted
  · cases accepted
  · split at accepted
    · next literal made =>
        obtain ⟨rfl, rfl⟩ := Prod.mk.inj (Except.ok.inj accepted)
        exact .literal (Value.ofInt_ok _ _ literal made)
    · cases accepted

theorem string_typed (position : Position) (text : String) (hint : Option Ty) (expr : Expr)
    (ty : Ty) (accepted : string position text hint = .ok (expr, ty)) :
    HasType table scope expr ty := by
  unfold string at accepted
  split at accepted
  · split at accepted
    · next valid =>
        obtain ⟨rfl, rfl⟩ := Prod.mk.inj (Except.ok.inj accepted)
        exact .literal ⟨valid, rfl⟩
    · cases accepted
  · obtain ⟨rfl, rfl⟩ := Prod.mk.inj (Except.ok.inj accepted)
    exact .literal (Value.inhabits_string text)

theorem variable_typed (position : Position) (name : String) (expr : Expr) (ty : Ty)
    (accepted : variableType scope position name = .ok (expr, ty)) :
    HasType table scope expr ty := by
  unfold variableType at accepted
  split at accepted
  · next entry found =>
      obtain ⟨rfl, rfl⟩ := Prod.mk.inj (Except.ok.inj accepted)
      exact .var (by simp [Scope.typeOf?, found])
  · next notLocal =>
      split at accepted
      · cases accepted
      · next data known =>
          split at accepted
          · next entry found =>
              obtain ⟨rfl, rfl⟩ := Prod.mk.inj (Except.ok.inj accepted)
              exact .var (by simp [Scope.typeOf?, notLocal, known, found])
          · cases accepted

theorem toPath_typed (position : Position) (inner expr : Expr) (found ty : Ty)
    (typed : HasType table scope inner found)
    (accepted : toPath position (inner, found) = .ok (expr, ty)) : HasType table scope expr ty := by
  unfold toPath at accepted
  split at accepted
  · next same =>
      obtain ⟨rfl, rfl⟩ := Prod.mk.inj same
      obtain ⟨rfl, rfl⟩ := Prod.mk.inj (Except.ok.inj accepted)
      exact typed
  · next same =>
      obtain ⟨rfl, rfl⟩ := Prod.mk.inj same
      obtain ⟨rfl, rfl⟩ := Prod.mk.inj (Except.ok.inj accepted)
      exact .objectPath typed
  · cases accepted

theorem operation_typed (position : Position) (op : BinaryOp) (left right expr : Expr)
    (ty result : Ty) (strict : ¬ (op = .and ∨ op = .or)) (leftTyped : HasType table scope left ty)
    (rightTyped : HasType table scope right ty)
    (accepted : operation position op left right ty = .ok (expr, result)) :
    HasType table scope expr result := by
  unfold operation at accepted
  split at accepted
  · next supported =>
      obtain ⟨rfl, rfl⟩ := Prod.mk.inj (Except.ok.inj accepted)
      exact .operation (not_or.mp strict) supported leftTyped rightTyped
  · cases accepted

theorem callOf_typed (position : Position) (b : Builtin) (function : String) (argument expr : Expr)
    (input ty : Ty) (found : table.find? function = some b)
    (typed : HasType table scope argument input)
    (accepted : callOf position b function (argument, input) = .ok (expr, ty)) :
    HasType table scope expr ty := by
  unfold callOf at accepted
  simp only at accepted
  split at accepted
  · next result ruled =>
      obtain ⟨rfl, rfl⟩ := Prod.mk.inj (Except.ok.inj accepted)
      exact .call found typed ruled
  · cases accepted

theorem negated_typed (position : Position) (operand expr : Expr) (found ty : Ty)
    (typed : HasType table scope operand found)
    (accepted : negated position (operand, found) = .ok (expr, ty)) :
    HasType table scope expr ty := by
  unfold negated at accepted
  simp only at accepted
  split at accepted
  · next numeric =>
      obtain ⟨rfl, rfl⟩ := Prod.mk.inj (Except.ok.inj accepted)
      exact .negate numeric typed
  · cases accepted

theorem arrayOf_typed (position : Position) (items : List Expr) (element : Option Ty) (expr : Expr)
    (ty : Ty) (typed : ∀ t, element = some t →
      HaveTypes table scope items (List.replicate items.length t))
    (accepted : arrayOf position items element = .ok (expr, ty)) : HasType table scope expr ty := by
  cases element with
  | none => cases accepted
  | some t =>
      obtain ⟨rfl, rfl⟩ := Prod.mk.inj (Except.ok.inj accepted)
      exact .array (typed t rfl)

theorem dictOf_typed (position : Position) (entries : List (Expr × Expr)) (key value : Option Ty)
    (expr : Expr) (ty : Ty)
    (typed : ∀ k v, key = some k → value = some v → HaveEntries table scope k v entries)
    (accepted : dictOf position entries key value = .ok (expr, ty)) :
    HasType table scope expr ty := by
  unfold dictOf at accepted
  split at accepted
  · split at accepted
    · obtain ⟨rfl, rfl⟩ := Prod.mk.inj (Except.ok.inj accepted)
      exact .dict (typed _ _ rfl rfl)
    · cases accepted
  · cases accepted

theorem infer_negate (position : Position) (operand : Surface.Expr) (hint : Option Ty) :
    infer table scope hint (.negate position operand) =
      match operand with
      | .integer _ n => integer position (-n) hint
      | .double _ x => .ok (.literal (.double (-x)), .double)
      | operand => infer table scope hint operand >>= negated position := by
  cases operand <;> simp only [infer]

mutual
/-- What inference accepts has the type that it finds. -/
theorem infer_typed : (raw : Surface.Expr) → (hint : Option Ty) → (expr : Expr) → (ty : Ty) →
    infer table scope hint raw = .ok (expr, ty) → HasType table scope expr ty
  | .bool _ flag, _, _, _, accepted => by
      rw [infer] at accepted
      obtain ⟨rfl, rfl⟩ := Prod.mk.inj (Except.ok.inj accepted)
      exact .literal (Value.inhabits_bool flag)
  | .integer position n, hint, expr, ty, accepted => by
      rw [infer] at accepted
      exact integer_typed position n hint expr ty accepted
  | .double _ x, _, _, _, accepted => by
      rw [infer] at accepted
      obtain ⟨rfl, rfl⟩ := Prod.mk.inj (Except.ok.inj accepted)
      exact .literal (Value.inhabits_double x)
  | .string position text, hint, expr, ty, accepted => by
      rw [infer] at accepted
      exact string_typed position text hint expr ty accepted
  | .var position name, _, expr, ty, accepted => by
      rw [infer] at accepted
      exact variable_typed position name expr ty accepted
  | .call position function arguments, _, expr, ty, accepted => by
      rw [infer] at accepted
      split at accepted
      · cases accepted
      · next b found =>
          -- One argument is passed as it is; any other number of them makes a tuple.
          match arguments, accepted with
          | [only], accepted =>
              obtain ⟨⟨argument, input⟩, inferred, called⟩ := (except_bind_ok_iff _ _ _).mp accepted
              exact callOf_typed position b function argument expr input ty found
                (infer_typed only _ argument input inferred) called
          | [], accepted =>
              obtain ⟨⟨items, types⟩, each, called⟩ := (except_bind_ok_iff _ _ _).mp accepted
              obtain ⟨own, rfl, typed⟩ := inferArguments_typed [] b [] items types each
              exact callOf_typed position b function _ expr _ ty found (.tuple typed) called
          | first :: second :: rest, accepted =>
              obtain ⟨⟨items, types⟩, each, called⟩ := (except_bind_ok_iff _ _ _).mp accepted
              obtain ⟨own, rfl, typed⟩ :=
                inferArguments_typed (first :: second :: rest) b [] items types each
              exact callOf_typed position b function _ expr _ ty found (.tuple typed) called
  | .tuple _ items, hint, _, _, accepted => by
      rw [infer] at accepted
      obtain ⟨⟨exprs, types⟩, each, answered⟩ := (except_bind_ok_iff _ _ _).mp accepted
      obtain ⟨rfl, rfl⟩ := Prod.mk.inj (Except.ok.inj answered)
      exact .tuple (inferTuple_typed items _ exprs types each)
  | .array position items, hint, expr, ty, accepted => by
      rw [infer] at accepted
      obtain ⟨⟨exprs, element⟩, each, made⟩ := (except_bind_ok_iff _ _ _).mp accepted
      exact arrayOf_typed position exprs element expr ty
        (inferItems_typed items _ exprs element each).2 made
  | .dict position entries, hint, expr, ty, accepted => by
      rw [infer] at accepted
      obtain ⟨⟨pairs, key, value⟩, each, made⟩ := (except_bind_ok_iff _ _ _).mp accepted
      exact dictOf_typed position pairs key value expr ty
        (inferEntries_typed entries _ _ pairs key value each).2.2 made
  | .variant _ inner, _, _, _, accepted => by
      rw [infer] at accepted
      obtain ⟨⟨expr', ty'⟩, inferred, answered⟩ := (except_bind_ok_iff _ _ _).mp accepted
      obtain ⟨rfl, rfl⟩ := Prod.mk.inj (Except.ok.inj answered)
      exact .variant (infer_typed inner none expr' ty' inferred)
  | .annotated _ wanted inner, _, expr, ty, accepted => by
      rw [infer] at accepted
      split at accepted
      · obtain ⟨⟨expr', ty'⟩, inferred, made⟩ := (except_bind_ok_iff _ _ _).mp accepted
        exact toPath_typed _ expr' expr ty' ty (infer_typed inner _ expr' ty' inferred) made
      · obtain ⟨expr', checked, answered⟩ := (except_bind_ok_iff _ _ _).mp accepted
        obtain ⟨rfl, rfl⟩ := Prod.mk.inj (Except.ok.inj answered)
        exact infer_typed inner _ expr' wanted ((expect_ok_iff _ _ _ _ _).mp checked)
  | .choice _ [], _, _, _, accepted => by
      rw [infer] at accepted
      cases accepted
  | .choice _ (first :: others), hint, _, _, accepted => by
      rw [infer] at accepted
      obtain ⟨⟨expr', ty'⟩, inferred, accepted⟩ := (except_bind_ok_iff _ _ _).mp accepted
      obtain ⟨exprs, alternatives, answered⟩ := (except_bind_ok_iff _ _ _).mp accepted
      obtain ⟨rfl, rfl⟩ := Prod.mk.inj (Except.ok.inj answered)
      exact .choice (infer_typed first hint expr' ty' inferred)
        (inferAlternatives_typed others ty' exprs alternatives)
  | .not _ operand, _, _, _, accepted => by
      rw [infer] at accepted
      obtain ⟨expr', checked, answered⟩ := (except_bind_ok_iff _ _ _).mp accepted
      obtain ⟨rfl, rfl⟩ := Prod.mk.inj (Except.ok.inj answered)
      exact .not (infer_typed operand _ expr' .bool ((expect_ok_iff _ _ _ _ _).mp checked))
  | .negate position operand, hint, expr, ty, accepted => by
      rw [infer_negate] at accepted
      split at accepted
      · exact integer_typed position _ hint expr ty accepted
      · obtain ⟨rfl, rfl⟩ := Prod.mk.inj (Except.ok.inj accepted)
        exact .literal (Value.inhabits_double _)
      · obtain ⟨⟨expr', ty'⟩, inferred, made⟩ := (except_bind_ok_iff _ _ _).mp accepted
        exact negated_typed position expr' expr ty' ty (infer_typed operand hint expr' ty' inferred)
          made
  | .binary position op lhs rhs, hint, expr, ty, accepted => by
      rw [infer] at accepted
      split at accepted
      · next logical =>
          obtain ⟨left, leftChecked, accepted⟩ := (except_bind_ok_iff _ _ _).mp accepted
          obtain ⟨right, rightChecked, answered⟩ := (except_bind_ok_iff _ _ _).mp accepted
          obtain ⟨rfl, rfl⟩ := Prod.mk.inj (Except.ok.inj answered)
          exact .logical logical
            (infer_typed lhs _ left .bool ((expect_ok_iff _ _ _ _ _).mp leftChecked))
            (infer_typed rhs _ right .bool ((expect_ok_iff _ _ _ _ _).mp rightChecked))
      · next strict =>
          -- The operand whose type is not open is typed first and gives the other its hint.
          split at accepted
          · obtain ⟨⟨right, found⟩, inferred, accepted⟩ := (except_bind_ok_iff _ _ _).mp accepted
            obtain ⟨left, checked, made⟩ := (except_bind_ok_iff _ _ _).mp accepted
            exact operation_typed position op left right expr found ty strict
              (infer_typed lhs _ left found ((expect_ok_iff _ _ _ _ _).mp checked))
              (infer_typed rhs _ right found inferred) made
          · obtain ⟨⟨left, found⟩, inferred, accepted⟩ := (except_bind_ok_iff _ _ _).mp accepted
            obtain ⟨right, checked, made⟩ := (except_bind_ok_iff _ _ _).mp accepted
            exact operation_typed position op left right expr found ty strict
              (infer_typed lhs _ left found inferred)
              (infer_typed rhs _ right found ((expect_ok_iff _ _ _ _ _).mp checked)) made

theorem inferArguments_typed : (raws : List Surface.Expr) → (b : Builtin) → (previous : List Ty) →
    (items : List Expr) → (types : List Ty) →
    inferArguments table scope b previous raws = .ok (items, types) →
      ∃ own, types = previous ++ own ∧ HaveTypes table scope items own
  | [], b, previous, _, _, accepted => by
      rw [inferArguments] at accepted
      obtain ⟨rfl, rfl⟩ := Prod.mk.inj (Except.ok.inj accepted)
      exact ⟨[], by simp, .nil⟩
  | raw :: rest, b, previous, _, _, accepted => by
      rw [inferArguments] at accepted
      obtain ⟨⟨item, ty⟩, first, accepted⟩ := (except_bind_ok_iff _ _ _).mp accepted
      obtain ⟨⟨items, types⟩, others, answered⟩ := (except_bind_ok_iff _ _ _).mp accepted
      obtain ⟨rfl, rfl⟩ := Prod.mk.inj (Except.ok.inj answered)
      obtain ⟨own, rfl, typed⟩ := inferArguments_typed rest b _ items types others
      exact ⟨ty :: own, by simp, .cons (infer_typed raw _ item ty first) typed⟩

theorem inferTuple_typed : (raws : List Surface.Expr) → (hints : List Ty) → (items : List Expr) →
    (types : List Ty) → inferTuple table scope hints raws = .ok (items, types) →
      HaveTypes table scope items types
  | [], _, _, _, accepted => by
      rw [inferTuple] at accepted
      obtain ⟨rfl, rfl⟩ := Prod.mk.inj (Except.ok.inj accepted)
      exact .nil
  | raw :: rest, hints, _, _, accepted => by
      rw [inferTuple] at accepted
      obtain ⟨⟨item, ty⟩, first, accepted⟩ := (except_bind_ok_iff _ _ _).mp accepted
      obtain ⟨⟨items, types⟩, others, answered⟩ := (except_bind_ok_iff _ _ _).mp accepted
      obtain ⟨rfl, rfl⟩ := Prod.mk.inj (Except.ok.inj answered)
      exact .cons (infer_typed raw _ item ty first) (inferTuple_typed rest _ items types others)

/-- The type of the items is fixed by the first of them, unless it was before. -/
theorem inferItems_typed : (raws : List Surface.Expr) → (element : Option Ty) →
    (items : List Expr) → (final : Option Ty) →
    inferItems table scope element raws = .ok (items, final) →
      (∀ t, element = some t → final = some t) ∧
        ∀ t, final = some t → HaveTypes table scope items (List.replicate items.length t)
  | [], _, _, _, accepted => by
      rw [inferItems] at accepted
      obtain ⟨rfl, rfl⟩ := Prod.mk.inj (Except.ok.inj accepted)
      exact ⟨fun _ same => same, fun _ _ => .nil⟩
  | raw :: rest, element, _, _, accepted => by
      rw [inferItems] at accepted
      obtain ⟨⟨item, element'⟩, first, accepted⟩ := (except_bind_ok_iff _ _ _).mp accepted
      obtain ⟨⟨items, final⟩, others, answered⟩ := (except_bind_ok_iff _ _ _).mp accepted
      obtain ⟨rfl, rfl⟩ := Prod.mk.inj (Except.ok.inj answered)
      obtain ⟨t, rfl, inferred, kept⟩ := slot_ok _ _ _ _ _ _ first
      -- From here on the type is fixed, and the rest ends with the same one.
      obtain ⟨fixed, typed⟩ := inferItems_typed rest (some t) items final others
      have final := fixed t rfl
      refine ⟨fun u same => (kept u same).symm ▸ final, fun u same => ?_⟩
      obtain rfl := Option.some.inj (final.symm.trans same)
      exact .cons (infer_typed raw _ item t inferred) (typed t same)

theorem inferEntries_typed : (raws : List (Surface.Expr × Surface.Expr)) →
    (key value : Option Ty) → (entries : List (Expr × Expr)) → (finalKey finalValue : Option Ty) →
    inferEntries table scope key value raws = .ok (entries, finalKey, finalValue) →
      (∀ t, key = some t → finalKey = some t) ∧ (∀ t, value = some t → finalValue = some t) ∧
        ∀ k v, finalKey = some k → finalValue = some v → HaveEntries table scope k v entries
  | [], _, _, _, _, _, accepted => by
      rw [inferEntries] at accepted
      obtain ⟨rfl, rest⟩ := Prod.mk.inj (Except.ok.inj accepted)
      obtain ⟨rfl, rfl⟩ := Prod.mk.inj rest
      exact ⟨fun _ same => same, fun _ same => same, fun _ _ _ _ => .nil⟩
  | (rawKey, rawValue) :: rest, key, value, _, _, _, accepted => by
      rw [inferEntries] at accepted
      obtain ⟨⟨k, key'⟩, first, accepted⟩ := (except_bind_ok_iff _ _ _).mp accepted
      obtain ⟨⟨v, value'⟩, second, accepted⟩ := (except_bind_ok_iff _ _ _).mp accepted
      obtain ⟨⟨entries, finalKey, finalValue⟩, others, answered⟩ :=
        (except_bind_ok_iff _ _ _).mp accepted
      obtain ⟨rfl, types⟩ := Prod.mk.inj (Except.ok.inj answered)
      obtain ⟨rfl, rfl⟩ := Prod.mk.inj types
      obtain ⟨t, rfl, keyInferred, keyKept⟩ := slot_ok _ _ _ _ _ _ first
      obtain ⟨u, rfl, valueInferred, valueKept⟩ := slot_ok _ _ _ _ _ _ second
      obtain ⟨keyFixed, valueFixed, typed⟩ :=
        inferEntries_typed rest (some t) (some u) entries finalKey finalValue others
      have keyFinal := keyFixed t rfl
      have valueFinal := valueFixed u rfl
      refine ⟨fun w same => (keyKept w same).symm ▸ keyFinal,
        fun w same => (valueKept w same).symm ▸ valueFinal, fun w x sameKey sameValue => ?_⟩
      obtain rfl := Option.some.inj (keyFinal.symm.trans sameKey)
      obtain rfl := Option.some.inj (valueFinal.symm.trans sameValue)
      exact .cons (infer_typed rawKey _ k t keyInferred) (infer_typed rawValue _ v u valueInferred)
        (typed t u sameKey sameValue)

theorem inferAlternatives_typed : (raws : List Surface.Expr) → (ty : Ty) → (exprs : List Expr) →
    inferAlternatives table scope ty raws = .ok exprs →
      HaveTypes table scope exprs (List.replicate exprs.length ty)
  | [], _, _, accepted => by
      rw [inferAlternatives] at accepted
      obtain rfl := Except.ok.inj accepted
      exact .nil
  | raw :: rest, ty, _, accepted => by
      rw [inferAlternatives] at accepted
      obtain ⟨expr, checked, accepted⟩ := (except_bind_ok_iff _ _ _).mp accepted
      obtain ⟨exprs, others, answered⟩ := (except_bind_ok_iff _ _ _).mp accepted
      obtain rfl := Except.ok.inj answered
      exact .cons (infer_typed raw _ expr ty ((expect_ok_iff _ _ _ _ _).mp checked))
        (inferAlternatives_typed rest ty exprs others)
end

end SimBus.Typing
