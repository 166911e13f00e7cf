import SimBus.Proofs.ExprTypes
import SimBus.Proofs.Resolved
/-!
Types of evaluated expressions, for any table of built-in functions, any data
and any locals. Reading a variable, calling a function and building an array or
a dictionary check types when they happen. An expression therefore returns
values of its type only, even where a procedure breaks the promise of its rule
or an argument is not what it says it is.
-/

namespace SimBus

open Eval (Yields yields_pure yields_throw yields_bind yields_lift yields_ofExcept yields_ofValue)

namespace Eval

/-- Evaluation returns values of the type only. It may fail with anything. -/
def TypedAs (m : Eval Value) (ty : Ty) : Prop := m.Yields (fun v => v.ty = ty) fun _ => True

theorem yields_any {α : Type} (m : Eval α) : m.Yields (fun _ => True) fun _ => True :=
  ⟨fun _ _ => trivial, fun _ _ => trivial⟩

theorem pure_typedAs (v : Value) : TypedAs (pure v) v.ty := yields_pure v rfl

theorem ofExcept_typedAs (result : Except EvalError Value) (ty : Ty)
    (ok : ∀ v, result = .ok v → v.ty = ty) : (ofExcept result).TypedAs ty :=
  yields_ofExcept result ok fun _ _ => trivial

theorem ofValue_typedAs (result : Except ValueError Value) (ty : Ty)
    (ok : ∀ v, result = .ok v → v.ty = ty) : (ofValue result).TypedAs ty :=
  yields_ofValue result ok fun _ _ => trivial

end Eval

open Eval (TypedAs yields_any pure_typedAs ofExcept_typedAs ofValue_typedAs)

theorem Value.mkArray_ty (element : Ty) (items : List Value) (v : Value)
    (made : mkArray element items = .ok v) : v.ty = .array element := by
  obtain ⟨_, _, same⟩ := (except_bind_ok_iff _ _ _).mp made
  obtain rfl := Except.ok.inj same
  rfl

theorem Value.mkDict_ty (key value : Ty) (pairs : List (Value × Value)) (v : Value)
    (made : mkDict key value pairs = .ok v) : v.ty = .dict key value := by
  obtain ⟨_, _, same⟩ := (except_bind_ok_iff _ _ _).mp made
  obtain rfl := Except.ok.inj same
  rfl

theorem Operator.delivers_ty (ty : Ty) (result : Except EvalError Value) (v : Value)
    (delivers : Delivers ty result) (made : result = .ok v) : v.ty = ty := by
  rcases delivers with ⟨w, same, inhabits⟩ | ⟨e, refused, -⟩
  · obtain rfl := Except.ok.inj (same.symm.trans made)
    exact inhabits.2
  · cases refused.symm.trans made

theorem EvalContext.read_ty (ctx : EvalContext) (name : String) (ty : Ty) (v : Value)
    (read : ctx.read name ty = .ok v) : v.ty = ty := by
  obtain ⟨w, -, checked⟩ := (except_bind_ok_iff _ _ _).mp read
  split at checked
  · next fits =>
      obtain rfl := Except.ok.inj checked
      exact fits
  · cases checked

theorem Builtin.call_typedAs (b : Builtin) (argument : Value) (result : Ty)
    (ruled : b.resultType argument.ty = .ok result) : (b.call argument).TypedAs result := by
  unfold Builtin.call
  rw [ruled]
  refine yields_bind (yields_any _) fun v _ => ?_
  by_cases kept : v.ty = result
  · simp only [kept, ↓reduceIte]
    exact yields_pure v kept
  · simp only [kept, ↓reduceIte]
    exact yields_throw _ trivial

namespace Expr

variable {scope : Scope} {ctx : EvalContext}

theorem toObjectPath_ty (v path : Value) (made : toObjectPath v = .ok path) :
    path.ty = .objectPath := by
  unfold toObjectPath at made
  split at made
  · split at made
    · obtain rfl := Except.ok.inj made
      rfl
    · cases made
  · split at made
    · obtain rfl := Except.ok.inj made
      rfl
    · cases made
  · cases made

theorem not_ty (v result : Value) (made : Operator.not v = .ok result) : result.ty = .bool := by
  cases v with
  | bool flag =>
      obtain rfl := Except.ok.inj made
      rfl
  | _ => cases made

theorem operation_typedAs (op : BinaryOp) (lhs rhs : Expr) (ty : Ty)
    (strict : op ≠ .and ∧ op ≠ .or) (supported : Typing.supports op ty = true)
    (left : (lhs.eval ctx).TypedAs ty) (right : (rhs.eval ctx).TypedAs ty) :
    ((binary op lhs rhs).eval ctx).TypedAs (Operator.resultType op ty) := by
  rw [eval_strict ctx op lhs rhs strict]
  refine yields_bind left fun a leftTyped => yields_bind right fun b rightTyped => ?_
  refine ofExcept_typedAs _ _ fun v made => ?_
  rcases Operator.apply_cases op strict ty supported a b leftTyped rightTyped with
    delivers | ⟨e, refused, -⟩
  · exact Operator.delivers_ty _ _ v delivers made
  · cases refused.symm.trans made

theorem logical_typedAs (op : BinaryOp) (lhs rhs : Expr) (logical : op = .and ∨ op = .or) :
    ((binary op lhs rhs).eval ctx).TypedAs .bool := by
  have bool (flag : Bool) : TypedAs (pure (.bool flag)) .bool := pure_typedAs (.bool flag)
  rcases logical with rfl | rfl
  · refine yields_bind (yields_any _) fun v _ => yields_bind (yields_any _) fun flag _ => ?_
    cases flag with
    | true =>
        exact yields_bind (yields_any _) fun w _ => yields_bind (yields_any _) fun flag' _ =>
          bool flag'
    | false => exact bool false
  · refine yields_bind (yields_any _) fun v _ => yields_bind (yields_any _) fun flag _ => ?_
    cases flag with
    | true => exact bool true
    | false =>
        exact yields_bind (yields_any _) fun w _ => yields_bind (yields_any _) fun flag' _ =>
          bool flag'

mutual
/-- Evaluation keeps the types of expressions, whatever it runs on. -/
theorem eval_typedAs :
    (expr : Expr) → (ty : Ty) → HasType ctx.builtins scope expr ty → (expr.eval ctx).TypedAs ty
  | .literal v, _, .literal inhabits => by
      rw [eval]
      exact inhabits.2 ▸ pure_typedAs v
  | .var name ty, _, .var _ => by
      rw [eval]
      exact ofExcept_typedAs _ _ (ctx.read_ty name ty)
  | .call function argument, result, .call found typed ruled => by
      rw [eval]
      refine yields_bind (eval_typedAs argument _ typed) fun v argumentTyped => ?_
      rw [EvalContext.call, found]
      exact Builtin.call_typedAs _ v result (argumentTyped ▸ ruled)
  | .tuple items, _, .tuple typed => by
      rw [eval]
      refine yields_bind (evalList_types items _ typed) fun values types => ?_
      exact yields_pure _ (by rw [Value.ty_tuple, types])
  | .array element items, _, .array _ => by
      rw [eval]
      exact yields_bind (yields_any _) fun values _ =>
        ofValue_typedAs _ _ (Value.mkArray_ty element values)
  | .dict key value entries, _, .dict _ => by
      rw [eval]
      exact yields_bind (yields_any _) fun pairs _ =>
        ofValue_typedAs _ _ (Value.mkDict_ty key value pairs)
  | .variant inner, _, .variant _ => by
      rw [eval]
      exact yields_bind (yields_any _) fun v _ => pure_typedAs (.variant v)
  | .objectPath inner, _, .objectPath _ => by
      rw [eval]
      exact yields_bind (yields_any _) fun v _ => ofExcept_typedAs _ _ (toObjectPath_ty v)
  | .not operand, _, .not _ => by
      rw [eval]
      exact yields_bind (yields_any _) fun v _ => ofExcept_typedAs _ _ (not_ty v)
  | .negate operand, ty, .negate numeric typed => by
      rw [eval]
      refine yields_bind (eval_typedAs operand ty typed) fun v operandTyped => ?_
      exact ofExcept_typedAs _ _ fun result =>
        Operator.delivers_ty ty _ result (Operator.negate_delivers ty numeric v operandTyped)
  | .binary op lhs rhs, _, .logical logical _ _ => logical_typedAs op lhs rhs logical
  | .binary op lhs rhs, _, .operation strict supported left right =>
      operation_typedAs op lhs rhs _ strict supported (eval_typedAs lhs _ left)
        (eval_typedAs rhs _ right)
  | .choice (first :: others), ty, .choice typed othersTyped => by
      rw [eval]
      refine yields_bind (yields_lift _ fun _ _ => trivial) fun i _ => ?_
      split
      · exact eval_typedAs first ty typed
      · exact evalNth_typedAs others ty (i.val - 1) othersTyped

theorem evalList_types : (items : List Expr) → (types : List Ty) →
    HaveTypes ctx.builtins scope items types →
      (evalList ctx items).Yields (fun values => values.map Value.ty = types) fun _ => True
  | [], _, .nil => by
      rw [evalList]
      exact yields_pure [] rfl
  | item :: rest, _, .cons typed othersTyped => by
      rw [evalList]
      refine yields_bind (eval_typedAs item _ typed) fun v itemTyped => ?_
      refine yields_bind (evalList_types rest _ othersTyped) fun values types => ?_
      exact yields_pure _ (by rw [List.map_cons, itemTyped, types])

theorem evalNth_typedAs : (items : List Expr) → (ty : Ty) → (n : Nat) →
    HaveTypes ctx.builtins scope items (List.replicate items.length ty) →
      (evalNth ctx items n).TypedAs ty
  | [], _, _, _ => by
      rw [evalNth]
      exact yields_throw _ trivial
  | item :: _, ty, 0, .cons typed _ => by
      rw [evalNth]
      exact eval_typedAs item ty typed
  | _ :: rest, ty, n + 1, .cons _ othersTyped => by
      rw [evalNth]
      exact evalNth_typedAs rest ty n othersTyped
end

end Expr

end SimBus
