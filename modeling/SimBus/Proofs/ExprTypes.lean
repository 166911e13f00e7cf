import SimBus.Proofs.BuiltinTypes
import SimBus.Proofs.OperatorTypes
/-!
Types of typed expressions, and what evaluation makes of them. An expression
that has a type returns a well-formed value of this type, or fails with an
expected error, or orders a NaN somewhere in it.
-/

namespace SimBus

open Draws (Branch)
open EvalError (Expected)
open Eval (yields_pure yields_throw yields_bind yields_lift yields_fails)

def Scope.typeOf? (scope : Scope) (name : String) : Option Ty :=
  match scope.locals.find? (·.1 == name) with
  | some entry => some entry.2
  | none => ((scope.data.getD []).find? (·.1 == name)).map Prod.snd

mutual
inductive HasType (table : BuiltinTable) (scope : Scope) : Expr → Ty → Prop where
  | literal {v : Value} {ty : Ty} : v.Inhabits ty → HasType table scope (.literal v) ty
  | var {name : String} {ty : Ty} : scope.typeOf? name = some ty →
      HasType table scope (.var name ty) ty
  | call {function : String} {argument : Expr} {b : Builtin} {input result : Ty} :
      table.find? function = some b → HasType table scope argument input →
      b.resultType input = .ok result → HasType table scope (.call function argument) result
  | tuple {items : List Expr} {types : List Ty} : HaveTypes table scope items types →
      HasType table scope (.tuple items) (.tuple types)
  | array {element : Ty} {items : List Expr} :
      HaveTypes table scope items (List.replicate items.length element) →
      HasType table scope (.array element items) (.array element)
  | dict {key value : Ty} {entries : List (Expr × Expr)} :
      HaveEntries table scope key value entries →
      HasType table scope (.dict key value entries) (.dict key value)
  | variant {inner : Expr} {ty : Ty} : HasType table scope inner ty →
      HasType table scope (.variant inner) .variant
  | objectPath {inner : Expr} : HasType table scope inner .string →
      HasType table scope (.objectPath inner) .objectPath
  | not {operand : Expr} : HasType table scope operand .bool →
      HasType table scope (.not operand) .bool
  | negate {operand : Expr} {ty : Ty} : ty.isNumeric = true → HasType table scope operand ty →
      HasType table scope (.negate operand) ty
  | logical {op : BinaryOp} {lhs rhs : Expr} : op = .and ∨ op = .or →
      HasType table scope lhs .bool → HasType table scope rhs .bool →
      HasType table scope (.binary op lhs rhs) .bool
  | operation {op : BinaryOp} {lhs rhs : Expr} {ty : Ty} : op ≠ .and ∧ op ≠ .or →
      Typing.supports op ty = true → HasType table scope lhs ty → HasType table scope rhs ty →
      HasType table scope (.binary op lhs rhs) (Operator.resultType op ty)
  | choice {first : Expr} {others : List Expr} {ty : Ty} : HasType table scope first ty →
      HaveTypes table scope others (List.replicate others.length ty) →
      HasType table scope (.choice (first :: others)) ty

inductive HaveTypes (table : BuiltinTable) (scope : Scope) : List Expr → List Ty → Prop where
  | nil : HaveTypes table scope [] []
  | cons {item : Expr} {rest : List Expr} {ty : Ty} {types : List Ty} :
      HasType table scope item ty → HaveTypes table scope rest types →
      HaveTypes table scope (item :: rest) (ty :: types)

inductive HaveEntries (table : BuiltinTable) (scope : Scope) :
    Ty → Ty → List (Expr × Expr) → Prop where
  | nil {key value : Ty} : HaveEntries table scope key value []
  | cons {key value : Ty} {k v : Expr} {rest : List (Expr × Expr)} :
      HasType table scope k key → HasType table scope v value →
      HaveEntries table scope key value rest → HaveEntries table scope key value ((k, v) :: rest)
end

namespace Expr

def children : Expr → List Expr
  | literal _ | var _ _ => []
  | call _ argument => [argument]
  | tuple items | array _ items | choice items => items
  | dict _ _ entries => entries.flatMap fun entry => [entry.1, entry.2]
  | variant inner | objectPath inner | not inner | negate inner => [inner]
  | binary _ lhs rhs => [lhs, rhs]

/-- Somewhere in the expression a NaN is ordered, and this is the error. -/
inductive Unordered (ctx : EvalContext) : Expr → EvalError → Prop where
  | here {op : BinaryOp} {lhs rhs : Expr} {left right : Value} {e : EvalError} :
      Branch (lhs.eval ctx).run (.ok left) → Branch (rhs.eval ctx).run (.ok right) →
      Operator.OrdersNaN op left right e → Unordered ctx (.binary op lhs rhs) e
  | within {child parent : Expr} {e : EvalError} : child ∈ parent.children →
      Unordered ctx child e → Unordered ctx parent e

/-- What an expression with a type can fail with. -/
def Fault (ctx : EvalContext) (expr : Expr) (e : EvalError) : Prop :=
  e.Expected ∨ expr.Unordered ctx e

def FaultAmong (ctx : EvalContext) (items : List Expr) (e : EvalError) : Prop :=
  ∃ item ∈ items, item.Fault ctx e

theorem fault_within (ctx : EvalContext) (parent : Expr) (e : EvalError)
    (fault : FaultAmong ctx parent.children e) : parent.Fault ctx e := by
  obtain ⟨child, member, expected | unordered⟩ := fault
  · exact .inl expected
  · exact .inr (.within member unordered)

theorem faultAmong_mono (ctx : EvalContext) (items more : List Expr) (included : items ⊆ more)
    (e : EvalError) (fault : FaultAmong ctx items e) : FaultAmong ctx more e := by
  obtain ⟨item, member, fault⟩ := fault
  exact ⟨item, included member, fault⟩

end Expr

def EvalContext.Fits (ctx : EvalContext) (scope : Scope) : Prop :=
  ∀ name ty, scope.typeOf? name = some ty → ∃ v, ctx.lookup name = .ok v ∧ v.Inhabits ty

namespace Expr

variable {scope : Scope} {ctx : EvalContext}

theorem yields_branch {α : Type} {m : Eval α} {returns : α → Prop} {fails : EvalError → Prop}
    (triple : m.Yields returns fails) :
    m.Yields (fun a => returns a ∧ Branch m.run (.ok a)) fails :=
  ⟨fun a branch => ⟨triple.returned a branch, branch⟩, triple.failed⟩

theorem yields_within {α : Type} {m : Eval α} {returns : α → Prop} {child parent : Expr}
    (member : child ∈ parent.children) (triple : m.Yields returns (child.Fault ctx)) :
    m.Yields returns (parent.Fault ctx) :=
  yields_fails triple fun e fault => fault_within ctx parent e ⟨child, member, fault⟩

theorem yields_expected {α : Type} {m : Eval α} {returns : α → Prop} (expr : Expr)
    (triple : m.Yields returns Expected) : m.Yields returns (expr.Fault ctx) :=
  yields_fails triple fun _ => .inl

theorem var_yields (name : String) (ty : Ty) (fits : ctx.Fits scope)
    (typed : scope.typeOf? name = some ty) :
    (Eval.ofExcept (ctx.read name ty)).Yields (fun v => v.Inhabits ty) Expected := by
  obtain ⟨v, found, inhabits⟩ := fits name ty typed
  have read : ctx.read name ty = .ok v := by
    simp [EvalContext.read, found, inhabits.2, bind, Except.bind, pure, Except.pure]
  rw [read]
  exact yields_pure v inhabits

theorem call_yields (sound : ctx.builtins.Sound) (function : String) (b : Builtin)
    (input result : Ty) (v : Value) (found : ctx.builtins.find? function = some b)
    (ruled : b.resultType input = .ok result) (inhabits : v.Inhabits input) :
    (ctx.call function v).Yields (fun r => r.Inhabits result) Expected := by
  unfold EvalContext.call
  rw [found]
  exact Builtin.call_yields b (sound function b found) v input result inhabits ruled

theorem toObjectPath_yields (v : Value) (typed : v.ty = .string) :
    (Eval.ofExcept (toObjectPath v)).Yields (fun path => path.Inhabits .objectPath) Expected := by
  obtain ⟨path, rfl⟩ := Value.string_of_ty v typed
  by_cases valid : ObjectPath.valid path = true
  · simp only [toObjectPath, valid, ↓reduceIte]
    exact yields_pure _ ⟨valid, rfl⟩
  · simp only [toObjectPath, valid]
    exact yields_throw _ (.invalidObjectPath (by simpa using valid))

theorem delivers_yields (result : Except EvalError Value) (ty : Ty)
    (delivers : Operator.Delivers ty result) :
    (Eval.ofExcept result).Yields (fun v => v.Inhabits ty) Expected := by
  rcases delivers with ⟨v, rfl, inhabits⟩ | ⟨e, rfl, expected⟩
  · exact yields_pure v inhabits
  · exact yields_throw e expected

theorem flag_yields (op : BinaryOp) (v : Value) (typed : v.ty = .bool) :
    (Eval.ofExcept (Operator.flag op v)).Yields (fun _ => True) Expected := by
  obtain ⟨flag, made⟩ := Operator.flag_ok op v typed
  rw [made]
  exact yields_pure flag trivial

theorem eval_strict (ctx : EvalContext) (op : BinaryOp) (lhs rhs : Expr)
    (strict : op ≠ .and ∧ op ≠ .or) : (binary op lhs rhs).eval ctx = (do
      let left ← lhs.eval ctx
      let right ← rhs.eval ctx
      Eval.ofExcept (Operator.apply op left right)) := by
  cases op
  case and => exact absurd rfl strict.1
  case or => exact absurd rfl strict.2
  all_goals rfl

theorem operation_yields (op : BinaryOp) (lhs rhs : Expr) (ty : Ty) (strict : op ≠ .and ∧ op ≠ .or)
    (supported : Typing.supports op ty = true)
    (left : (lhs.eval ctx).Yields (fun v => v.Inhabits ty) (lhs.Fault ctx))
    (right : (rhs.eval ctx).Yields (fun v => v.Inhabits ty) (rhs.Fault ctx)) :
    ((binary op lhs rhs).eval ctx).Yields (fun v => v.Inhabits (Operator.resultType op ty))
      ((binary op lhs rhs).Fault ctx) := by
  rw [eval_strict ctx op lhs rhs strict]
  refine yields_bind (yields_within (by simp [children]) (yields_branch left)) fun a leftHolds => ?_
  refine yields_bind (yields_within (by simp [children]) (yields_branch right))
    fun b rightHolds => ?_
  rcases Operator.apply_cases op strict ty supported a b leftHolds.1.2 rightHolds.1.2 with
    delivers | ⟨e, refused, nan⟩
  · exact yields_expected _ (delivers_yields _ _ delivers)
  · rw [refused]
    exact yields_throw e (.inr (.here leftHolds.2 rightHolds.2 nan))

theorem logical_yields (op : BinaryOp) (lhs rhs : Expr) (logical : op = .and ∨ op = .or)
    (left : (lhs.eval ctx).Yields (fun v => v.Inhabits .bool) (lhs.Fault ctx))
    (right : (rhs.eval ctx).Yields (fun v => v.Inhabits .bool) (rhs.Fault ctx)) :
    ((binary op lhs rhs).eval ctx).Yields (fun v => v.Inhabits .bool)
      ((binary op lhs rhs).Fault ctx) := by
  have first : (lhs.eval ctx).Yields (fun v => v.Inhabits .bool) ((binary op lhs rhs).Fault ctx) :=
    yields_within (by simp [children]) left
  have second : (rhs.eval ctx).Yields (fun v => v.Inhabits .bool) ((binary op lhs rhs).Fault ctx) :=
    yields_within (by simp [children]) right
  have asFlag (v : Value) (typed : v.ty = .bool) :
      (Eval.ofExcept (Operator.flag op v)).Yields (fun _ => True) ((binary op lhs rhs).Fault ctx) :=
    yields_expected _ (flag_yields op v typed)
  rcases logical with rfl | rfl
  · refine yields_bind first fun v typed => yields_bind (asFlag v typed.2) fun flag _ => ?_
    cases flag with
    | true =>
        refine yields_bind second fun w typed' => yields_bind (asFlag w typed'.2) fun flag' _ => ?_
        exact yields_pure _ (Value.inhabits_bool flag')
    | false => exact yields_pure _ (Value.inhabits_bool false)
  · refine yields_bind first fun v typed => yields_bind (asFlag v typed.2) fun flag _ => ?_
    cases flag with
    | true => exact yields_pure _ (Value.inhabits_bool true)
    | false =>
        refine yields_bind second fun w typed' => yields_bind (asFlag w typed'.2) fun flag' _ => ?_
        exact yields_pure _ (Value.inhabits_bool flag')

mutual
/-- Expressions keep what their types promise. -/
theorem eval_yields (sound : ctx.builtins.Sound) (fits : ctx.Fits scope) :
    (expr : Expr) → (ty : Ty) → HasType ctx.builtins scope expr ty →
      (expr.eval ctx).Yields (fun v => v.Inhabits ty) (expr.Fault ctx)
  | .literal v, _, .literal inhabits => by
      rw [eval]
      exact yields_pure v inhabits
  | .var name ty, _, .var typed => by
      rw [eval]
      exact yields_expected _ (var_yields name ty fits typed)
  | .call function argument, result, .call found typed ruled => by
      rw [eval]
      refine yields_bind (yields_within (by simp [children])
        (eval_yields sound fits argument _ typed)) fun v inhabits => ?_
      exact yields_expected _ (call_yields sound function _ _ result v found ruled inhabits)
  | .tuple items, _, .tuple typed => by
      rw [eval]
      refine yields_bind (yields_fails (evalList_yields sound fits items _ typed)
        (fault_within ctx (.tuple items))) fun values kept => ?_
      exact yields_pure _ ⟨(Value.wellFormed_tuple_iff values).mpr kept.2, by
        rw [Value.ty_tuple, kept.1]⟩
  | .array element items, _, .array typed => by
      rw [eval]
      refine yields_bind (yields_fails (evalList_yields sound fits items _ typed)
        (fault_within ctx (.array element items))) fun values kept => ?_
      have uniform : ∀ v ∈ values, v.ty = element := by
        intro v member
        have inTypes : v.ty ∈ values.map Value.ty := List.mem_map_of_mem member
        rw [kept.1] at inTypes
        exact List.eq_of_mem_replicate inTypes
      rw [Value.mkArray_ok element values uniform]
      exact yields_pure _ (Value.inhabits_array element values fun v member =>
        ⟨kept.2 v member, uniform v member⟩)
  | .dict key value entries, _, .dict typed => by
      rw [eval]
      refine yields_bind (yields_fails (evalEntries_yields sound fits key value entries typed)
        (fault_within ctx (.dict key value entries))) fun pairs kept => ?_
      obtain ⟨dict, made, inhabits⟩ := Value.mkDict_ok key value pairs kept
      rw [made]
      exact yields_pure dict inhabits
  | .variant inner, _, .variant typed => by
      rw [eval]
      refine yields_bind (yields_within (by simp [children])
        (eval_yields sound fits inner _ typed)) fun v inhabits => ?_
      exact yields_pure _ (Value.inhabits_variant v inhabits.1)
  | .objectPath inner, _, .objectPath typed => by
      rw [eval]
      refine yields_bind (yields_within (by simp [children])
        (eval_yields sound fits inner _ typed)) fun v inhabits => ?_
      exact yields_expected _ (toObjectPath_yields v inhabits.2)
  | .not operand, _, .not typed => by
      rw [eval]
      refine yields_bind (yields_within (by simp [children])
        (eval_yields sound fits operand _ typed)) fun v inhabits => ?_
      obtain ⟨flag, made⟩ := Operator.not_ok v inhabits.2
      rw [made]
      exact yields_pure _ (Value.inhabits_bool flag)
  | .negate operand, ty, .negate numeric typed => by
      rw [eval]
      refine yields_bind (yields_within (by simp [children])
        (eval_yields sound fits operand _ typed)) fun v inhabits => ?_
      exact yields_expected _
        (delivers_yields _ _ (Operator.negate_delivers ty numeric v inhabits.2))
  | .binary op lhs rhs, _, .logical logical left right =>
      logical_yields op lhs rhs logical (eval_yields sound fits lhs _ left)
        (eval_yields sound fits rhs _ right)
  | .binary op lhs rhs, _, .operation strict supported left right =>
      operation_yields op lhs rhs _ strict supported (eval_yields sound fits lhs _ left)
        (eval_yields sound fits rhs _ right)
  | .choice (first :: others), ty, .choice typed othersTyped => by
      rw [eval]
      refine yields_bind (yields_lift _ fun _ _ => trivial) fun i _ => ?_
      -- The first alternative is the one that gave the others their type.
      split
      · exact yields_within (by simp [children]) (eval_yields sound fits first ty typed)
      · next later =>
          have inRange : i.val - 1 < others.length := by omega
          refine yields_fails (evalNth_yields sound fits others ty (i.val - 1) othersTyped inRange)
            fun e fault => fault_within ctx (.choice (first :: others)) e ?_
          exact faultAmong_mono ctx others _ (List.subset_cons_self first others) e fault

theorem evalList_yields (sound : ctx.builtins.Sound) (fits : ctx.Fits scope) :
    (items : List Expr) → (types : List Ty) → HaveTypes ctx.builtins scope items types →
      (evalList ctx items).Yields
        (fun values => values.map Value.ty = types ∧ ∀ v ∈ values, v.WellFormed)
        (FaultAmong ctx items)
  | [], _, .nil => by
      rw [evalList]
      exact yields_pure [] ⟨rfl, by simp⟩
  | item :: rest, _, .cons typed othersTyped => by
      rw [evalList]
      refine yields_bind (yields_fails (eval_yields sound fits item _ typed)
        fun e fault => ⟨item, List.mem_cons_self, fault⟩) fun v inhabits => ?_
      refine yields_bind (yields_fails (evalList_yields sound fits rest _ othersTyped)
        (faultAmong_mono ctx rest _ (List.subset_cons_self item rest))) fun values kept => ?_
      refine yields_pure _ ⟨by rw [List.map_cons, inhabits.2, kept.1], ?_⟩
      intro w member
      rcases List.mem_cons.mp member with rfl | later
      · exact inhabits.1
      · exact kept.2 w later

theorem evalEntries_yields (sound : ctx.builtins.Sound) (fits : ctx.Fits scope) (key value : Ty) :
    (entries : List (Expr × Expr)) → HaveEntries ctx.builtins scope key value entries →
      (evalEntries ctx entries).Yields
        (fun pairs => ∀ pair ∈ pairs, pair.1.Inhabits key ∧ pair.2.Inhabits value)
        (FaultAmong ctx (entries.flatMap fun entry => [entry.1, entry.2]))
  | [], .nil => by
      rw [evalEntries]
      exact yields_pure [] (by simp)
  | (k, v) :: rest, .cons keyTyped valueTyped othersTyped => by
      rw [evalEntries, List.flatMap_cons]
      refine yields_bind (yields_fails (eval_yields sound fits k _ keyTyped)
        fun e fault => ⟨k, by simp, fault⟩) fun a keyInhabits => ?_
      refine yields_bind (yields_fails (eval_yields sound fits v _ valueTyped)
        fun e fault => ⟨v, by simp, fault⟩) fun b valueInhabits => ?_
      refine yields_bind (yields_fails (evalEntries_yields sound fits key value rest othersTyped)
        (faultAmong_mono ctx _ _ (List.subset_append_right [k, v] _))) fun pairs kept => ?_
      refine yields_pure _ ?_
      intro pair member
      rcases List.mem_cons.mp member with rfl | later
      · exact ⟨keyInhabits, valueInhabits⟩
      · exact kept pair later

theorem evalNth_yields (sound : ctx.builtins.Sound) (fits : ctx.Fits scope) :
    (items : List Expr) → (ty : Ty) → (n : Nat) →
      HaveTypes ctx.builtins scope items (List.replicate items.length ty) → n < items.length →
      (evalNth ctx items n).Yields (fun v => v.Inhabits ty) (FaultAmong ctx items)
  | item :: rest, ty, 0, .cons typed _, _ => by
      rw [evalNth]
      exact yields_fails (eval_yields sound fits item ty typed)
        fun e fault => ⟨item, List.mem_cons_self, fault⟩
  | item :: rest, ty, n + 1, .cons _ othersTyped, inRange => by
      rw [evalNth]
      exact yields_fails (evalNth_yields sound fits rest ty n othersTyped (by simpa using inRange))
        (faultAmong_mono ctx rest _ (List.subset_cons_self item rest))
end

end Expr

end SimBus
