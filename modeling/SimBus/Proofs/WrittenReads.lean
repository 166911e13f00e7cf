import SimBus.Proofs.OwnTypes
import SimBus.Proofs.TypedDefinitions
/-!
The variables that a program reads, as it is written. Typing takes an expression
apart and puts a typed one together again; no variable gets lost on the way, and
none comes up that was not written.
-/

namespace SimBus

namespace Surface

namespace Expr

def parts : Expr → List Expr
  | bool _ _ | integer _ _ | double _ _ | string _ _ | var _ _ => []
  | call _ _ items | tuple _ items | array _ items | choice _ items => items
  | dict _ entries => entries.flatMap fun entry => [entry.1, entry.2]
  | variant _ inner | annotated _ _ inner | not _ inner | negate _ inner => [inner]
  | binary _ _ lhs rhs => [lhs, rhs]

/-- The name is written somewhere in the expression, to be read. -/
inductive Mentions (name : String) : Expr → Prop where
  | here (pos : Position) : Mentions name (.var pos name)
  | inside {whole part : Expr} : part ∈ whole.parts → Mentions name part → Mentions name whole

variable {name : String}

theorem mentions_var_iff (pos : Position) (written : String) :
    Mentions name (.var pos written) ↔ name = written := by
  constructor
  · intro mentions
    cases mentions with
    | here => rfl
    | inside part _ => cases part
  · rintro rfl
    exact .here pos

/-- Unless it is a variable itself, an expression mentions what its parts do. -/
theorem mentions_iff (whole : Expr) (compound : ∀ pos written, whole ≠ .var pos written) :
    Mentions name whole ↔ ∃ part ∈ whole.parts, Mentions name part := by
  constructor
  · intro mentions
    cases mentions with
    | here pos => exact absurd rfl (compound pos name)
    | inside part within => exact ⟨_, part, within⟩
  · rintro ⟨part, member, within⟩
    exact .inside member within

end Expr

def Statement.expressions : Statement → List Expr
  | assign _ _ value => [value]
  | reply _ arguments | emit _ _ arguments => arguments
  | throw _ _ message => message.toList

namespace Transition

def expressions (t : Transition) : List Expr :=
  t.preconditions.map Precondition.condition ++ t.body.flatMap Statement.expressions

def Assigns (t : Transition) (name : String) : Prop :=
  ∃ pos value, Statement.assign pos name value ∈ t.body

/-- The name is read where it stands for data, which it does unless a parameter
has the same name. -/
def ReadsData (t : Transition) (parameters : List (String × Ty)) (name : String) : Prop :=
  name ∉ parameters.map Prod.fst ∧ ∃ expr ∈ t.expressions, expr.Mentions name

theorem exists_mentions_iff (t : Transition) (name : String) :
    (∃ expr ∈ t.expressions, expr.Mentions name) ↔
      (∃ p ∈ t.preconditions, p.condition.Mentions name) ∨
        ∃ s ∈ t.body, ∃ expr ∈ s.expressions, expr.Mentions name := by
  simp only [expressions, List.mem_append, List.mem_map, List.mem_flatMap]
  constructor
  · rintro ⟨_, ⟨p, member, rfl⟩ | ⟨s, member, within⟩, mentions⟩
    · exact .inl ⟨p, member, mentions⟩
    · exact .inr ⟨s, member, _, within, mentions⟩
  · rintro (⟨p, member, mentions⟩ | ⟨s, member, expr, within, mentions⟩)
    · exact ⟨_, .inl ⟨p, member, rfl⟩, mentions⟩
    · exact ⟨expr, .inr ⟨s, member, within⟩, mentions⟩

end Transition

end Surface

namespace Typing

open Surface.Expr (Mentions mentions_iff mentions_var_iff)

variable {name : String}

/-- The typed expression reads the variable when it is mentioned in the written one. -/
def SameReads (name : String) (raw : Surface.Expr) (expr : Expr) : Prop :=
  name ∈ expr.variableNames ↔ raw.Mentions name

def SameReadsOfList (name : String) (raws : List Surface.Expr) (exprs : List Expr) : Prop :=
  name ∈ Expr.variableNamesOfList exprs ↔ ∃ raw ∈ raws, raw.Mentions name

theorem sameReads_nil : SameReadsOfList name [] [] := by
  simp [SameReadsOfList, Expr.variableNamesOfList]

theorem sameReads_cons {raw : Surface.Expr} {expr : Expr} {raws : List Surface.Expr}
    {exprs : List Expr} (here : SameReads name raw expr)
    (others : SameReadsOfList name raws exprs) :
    SameReadsOfList name (raw :: raws) (expr :: exprs) := by
  unfold SameReads SameReadsOfList at *
  simp [Expr.variableNamesOfList, here, others]

theorem sameReads_parts {raw : Surface.Expr} {expr : Expr} (exprs : List Expr)
    (compound : ∀ pos written, raw ≠ .var pos written)
    (joined : ∀ name, name ∈ expr.variableNames ↔ name ∈ Expr.variableNamesOfList exprs)
    (each : SameReadsOfList name raw.parts exprs) : SameReads name raw expr := by
  rw [SameReads, joined, mentions_iff raw compound]
  exact each

theorem sameReads_part {raw part : Surface.Expr} {expr : Expr} (inner : Expr)
    (only : raw.parts = [part])
    (joined : expr.variableNames = inner.variableNames) (within : SameReads name part inner) :
    SameReads name raw expr := by
  refine sameReads_parts [inner] ?_ ?_ ?_
  · rintro pos written rfl
    cases only
  · simp [joined, Expr.variableNamesOfList]
  · rw [only]
    exact sameReads_cons within sameReads_nil

theorem sameReads_literal (raw : Surface.Expr) (v : Value) (leaf : raw.parts = [])
    (constant : ∀ pos written, raw ≠ .var pos written) : SameReads name raw (.literal v) := by
  refine sameReads_parts [] constant (by simp [Expr.variableNames, Expr.variableNamesOfList]) ?_
  rw [leaf]
  exact sameReads_nil

theorem string_literal (position : Position) (text : String) (hint : Option Ty) (expr : Expr)
    (ty : Ty) (accepted : string position text hint = .ok (expr, ty)) : ∃ v, expr = .literal v := by
  unfold string at accepted
  split at accepted
  · split at accepted
    · exact ⟨_, (Prod.mk.inj (Except.ok.inj accepted)).1.symm⟩
    · cases accepted
  · exact ⟨_, (Prod.mk.inj (Except.ok.inj accepted)).1.symm⟩

theorem variableType_var (scope : Scope) (position : Position) (written : String) (expr : Expr)
    (ty : Ty) (accepted : variableType scope position written = .ok (expr, ty)) :
    expr = .var written ty := by
  unfold variableType at accepted
  split at accepted
  · obtain ⟨rfl, rfl⟩ := Prod.mk.inj (Except.ok.inj accepted)
    rfl
  · split at accepted
    · cases accepted
    · split at accepted
      · obtain ⟨rfl, rfl⟩ := Prod.mk.inj (Except.ok.inj accepted)
        rfl
      · cases accepted

theorem toPath_variableNames (position : Position) (inner expr : Expr) (found ty : Ty)
    (accepted : toPath position (inner, found) = .ok (expr, ty)) :
    expr.variableNames = inner.variableNames := by
  unfold toPath at accepted
  split at accepted
  · next same =>
      obtain ⟨rfl, rfl⟩ := Prod.mk.inj same
      obtain ⟨rfl, rfl⟩ := Prod.mk.inj (Except.ok.inj accepted)
      rfl
  · next same =>
      obtain ⟨rfl, rfl⟩ := Prod.mk.inj same
      obtain ⟨rfl, rfl⟩ := Prod.mk.inj (Except.ok.inj accepted)
      rfl
  · cases accepted

theorem callOf_call (position : Position) (b : Builtin) (function : String) (argument expr : Expr)
    (input ty : Ty) (accepted : callOf position b function (argument, input) = .ok (expr, ty)) :
    expr = .call function argument := by
  simp only [callOf] at accepted
  split at accepted
  · exact (Prod.mk.inj (Except.ok.inj accepted)).1.symm
  · cases accepted

theorem sameReads_binary {position : Position} {op : BinaryOp} {lhs rhs : Surface.Expr}
    {left right : Expr} (ofLeft : SameReads name lhs left) (ofRight : SameReads name rhs right) :
    SameReads name (.binary position op lhs rhs) (.binary op left right) :=
  sameReads_parts [left, right] (by simp)
    (by simp [Expr.variableNames, Expr.variableNamesOfList])
    (sameReads_cons ofLeft (sameReads_cons ofRight sameReads_nil))

variable {table : BuiltinTable} {scope : Scope}

theorem operands_read {hint : Option Ty} {lhs rhs : Surface.Expr} {left right : Expr} {ty : Ty}
    (ofLeft : ∀ hint, infer table scope hint lhs = .ok (left, ty) → SameReads name lhs left)
    (ofRight : ∀ hint, infer table scope hint rhs = .ok (right, ty) → SameReads name rhs right)
    (operands : Operands table scope hint lhs rhs left right ty) :
    SameReads name lhs left ∧ SameReads name rhs right := by
  unfold Operands at operands
  split at operands
  · exact ⟨ofLeft _ operands.2, ofRight _ operands.1⟩
  · exact ⟨ofLeft _ operands.1, ofRight _ operands.2⟩

mutual
/-- An accepted expression reads the variables that are mentioned in it. -/
theorem infer_reads : (raw : Surface.Expr) → (hint : Option Ty) → (expr : Expr) → (ty : Ty) →
    infer table scope hint raw = .ok (expr, ty) → SameReads name raw expr
  | .bool _ flag, _, _, _, accepted => by
      rw [infer] at accepted
      obtain ⟨rfl, rfl⟩ := Prod.mk.inj (Except.ok.inj accepted)
      exact sameReads_literal _ _ rfl (by simp)
  | .integer position n, hint, expr, ty, accepted => by
      rw [infer] at accepted
      obtain ⟨-, literal, -, rfl⟩ := (integer_ok_iff _ _ _ _ _).mp accepted
      exact sameReads_literal _ _ rfl (by simp)
  | .double _ x, _, _, _, accepted => by
      rw [infer] at accepted
      obtain ⟨rfl, rfl⟩ := Prod.mk.inj (Except.ok.inj accepted)
      exact sameReads_literal _ _ rfl (by simp)
  | .string position text, hint, expr, ty, accepted => by
      rw [infer] at accepted
      obtain ⟨v, rfl⟩ := string_literal position text hint expr ty accepted
      exact sameReads_literal _ _ rfl (by simp)
  | .var position written, _, expr, ty, accepted => by
      rw [infer] at accepted
      obtain rfl := variableType_var scope position written expr ty accepted
      rw [SameReads, mentions_var_iff, Expr.variableNames, List.mem_singleton]
  | .call position function arguments, _, expr, ty, accepted => by
      rw [infer] at accepted
      split at accepted
      · cases accepted
      · next b found =>
          -- One argument is passed as it is; any other number of them makes a tuple.
          match arguments, accepted with
          | [only], accepted =>
              obtain ⟨⟨argument, input⟩, inferred, called⟩ := (except_bind_ok_iff _ _ _).mp accepted
              obtain rfl := callOf_call position b function argument expr input ty called
              exact sameReads_part _ rfl (by rw [Expr.variableNames])
                (infer_reads only _ argument input inferred)
          | [], accepted =>
              obtain ⟨⟨items, types⟩, each, called⟩ := (except_bind_ok_iff _ _ _).mp accepted
              obtain rfl := callOf_call position b function _ expr _ ty called
              exact sameReads_parts _ (by simp) (by simp [Expr.variableNames])
                (inferArguments_reads [] b [] items types each)
          | first :: second :: rest, accepted =>
              obtain ⟨⟨items, types⟩, each, called⟩ := (except_bind_ok_iff _ _ _).mp accepted
              obtain rfl := callOf_call position b function _ expr _ ty called
              exact sameReads_parts _ (by simp) (by simp [Expr.variableNames])
                (inferArguments_reads (first :: second :: rest) b [] items types each)
  | .tuple position items, hint, expr, ty, accepted => by
      obtain ⟨exprs, types, each, rfl, rfl⟩ := (infer_tuple_iff _ _ _ _ _).mp accepted
      exact sameReads_parts _ (by simp) (by simp [Expr.variableNames])
        (inferTuple_reads items _ exprs types each)
  | .array position items, hint, expr, ty, accepted => by
      obtain ⟨exprs, element, each, rfl, rfl⟩ := (infer_array_iff _ _ _ _ _).mp accepted
      exact sameReads_parts _ (by simp) (by simp [Expr.variableNames])
        (inferItems_reads items _ exprs _ each)
  | .dict position entries, hint, expr, ty, accepted => by
      obtain ⟨pairs, key, value, each, -, rfl, rfl⟩ := (infer_dict_iff _ _ _ _ _).mp accepted
      rw [SameReads, mentions_iff _ (by simp), Expr.variableNames]
      exact inferEntries_reads entries _ _ pairs _ _ each
  | .variant _ inner, _, _, _, accepted => by
      rw [infer] at accepted
      obtain ⟨⟨expr', ty'⟩, inferred, answered⟩ := (except_bind_ok_iff _ _ _).mp accepted
      obtain ⟨rfl, rfl⟩ := Prod.mk.inj (Except.ok.inj answered)
      exact sameReads_part _ rfl (by rw [Expr.variableNames])
        (infer_reads inner none expr' ty' inferred)
  | .annotated _ wanted inner, _, expr, ty, accepted => by
      rw [infer] at accepted
      split at accepted
      · obtain ⟨⟨expr', ty'⟩, inferred, made⟩ := (except_bind_ok_iff _ _ _).mp accepted
        exact sameReads_part _ rfl (toPath_variableNames _ expr' expr ty' ty made)
          (infer_reads inner _ expr' ty' inferred)
      · obtain ⟨expr', checked, answered⟩ := (except_bind_ok_iff _ _ _).mp accepted
        obtain ⟨rfl, rfl⟩ := Prod.mk.inj (Except.ok.inj answered)
        exact sameReads_part _ rfl rfl
          (infer_reads inner _ expr' wanted ((expect_ok_iff _ _ _ _ _).mp checked))
  | .choice _ [], _, _, _, accepted => by
      rw [infer] at accepted
      cases accepted
  | .choice position (first :: others), hint, expr, ty, accepted => by
      obtain ⟨head, tail, inferred, alternatives, rfl⟩ := (infer_choice_iff _ _ _ _ _ _).mp accepted
      exact sameReads_parts _ (by simp) (by simp [Expr.variableNames])
        (sameReads_cons (infer_reads first hint head ty inferred)
          (inferAlternatives_reads others ty tail alternatives))
  | .not _ operand, _, _, _, accepted => by
      rw [infer] at accepted
      obtain ⟨expr', checked, answered⟩ := (except_bind_ok_iff _ _ _).mp accepted
      obtain ⟨rfl, rfl⟩ := Prod.mk.inj (Except.ok.inj answered)
      exact sameReads_part _ rfl (by rw [Expr.variableNames])
        (infer_reads operand _ expr' .bool ((expect_ok_iff _ _ _ _ _).mp checked))
  | .negate position operand, hint, expr, ty, accepted => by
      rw [infer_negate] at accepted
      split at accepted
      · next place n =>
          -- The literal has taken in the sign, and the number below it reads nothing either.
          obtain ⟨-, literal, -, rfl⟩ := (integer_ok_iff _ _ _ _ _).mp accepted
          exact sameReads_part (.literal literal) rfl rfl (sameReads_literal _ _ rfl (by simp))
      · obtain ⟨rfl, rfl⟩ := Prod.mk.inj (Except.ok.inj accepted)
        exact sameReads_part (.literal _) rfl rfl (sameReads_literal _ _ rfl (by simp))
      · obtain ⟨⟨inner, own⟩, inferred, made⟩ := (except_bind_ok_iff _ _ _).mp accepted
        obtain ⟨-, rfl, rfl⟩ := (negated_ok_iff _ _ _ _ _).mp made
        exact sameReads_part _ rfl (by rw [Expr.variableNames])
          (infer_reads operand hint inner ty inferred)
  | .binary position op lhs rhs, hint, expr, ty, accepted => by
      by_cases logical : op = .and ∨ op = .or
      · rw [infer, if_pos logical] at accepted
        obtain ⟨left, leftChecked, accepted⟩ := (except_bind_ok_iff _ _ _).mp accepted
        obtain ⟨right, rightChecked, answered⟩ := (except_bind_ok_iff _ _ _).mp accepted
        obtain ⟨rfl, rfl⟩ := Prod.mk.inj (Except.ok.inj answered)
        exact sameReads_binary
          (infer_reads lhs _ left .bool ((expect_ok_iff _ _ _ _ _).mp leftChecked))
          (infer_reads rhs _ right .bool ((expect_ok_iff _ _ _ _ _).mp rightChecked))
      · obtain ⟨left, right, own, operands, -, rfl, -⟩ :=
          (infer_binary_iff _ _ (not_or.mp logical) _ _ _ _ _).mp accepted
        obtain ⟨ofLeft, ofRight⟩ := operands_read (fun hint => infer_reads lhs hint left own)
          (fun hint => infer_reads rhs hint right own) operands
        exact sameReads_binary ofLeft ofRight

theorem inferArguments_reads : (raws : List Surface.Expr) → (b : Builtin) → (previous : List Ty) →
    (items : List Expr) → (types : List Ty) →
    inferArguments table scope b previous raws = .ok (items, types) →
      SameReadsOfList name raws items
  | [], b, previous, _, _, accepted => by
      rw [inferArguments] at accepted
      obtain ⟨rfl, -⟩ := Prod.mk.inj (Except.ok.inj accepted)
      exact sameReads_nil
  | raw :: rest, b, previous, _, _, accepted => by
      rw [inferArguments] at accepted
      obtain ⟨⟨item, ty⟩, first, accepted⟩ := (except_bind_ok_iff _ _ _).mp accepted
      obtain ⟨⟨items, types⟩, others, answered⟩ := (except_bind_ok_iff _ _ _).mp accepted
      obtain ⟨rfl, -⟩ := Prod.mk.inj (Except.ok.inj answered)
      exact sameReads_cons (infer_reads raw _ item ty first)
        (inferArguments_reads rest b _ items types others)

theorem inferTuple_reads : (raws : List Surface.Expr) → (hints : List Ty) → (items : List Expr) →
    (types : List Ty) → inferTuple table scope hints raws = .ok (items, types) →
      SameReadsOfList name raws items
  | [], _, _, _, accepted => by
      rw [inferTuple] at accepted
      obtain ⟨rfl, -⟩ := Prod.mk.inj (Except.ok.inj accepted)
      exact sameReads_nil
  | raw :: rest, hints, _, _, accepted => by
      rw [inferTuple] at accepted
      obtain ⟨⟨item, ty⟩, first, accepted⟩ := (except_bind_ok_iff _ _ _).mp accepted
      obtain ⟨⟨items, types⟩, others, answered⟩ := (except_bind_ok_iff _ _ _).mp accepted
      obtain ⟨rfl, -⟩ := Prod.mk.inj (Except.ok.inj answered)
      exact sameReads_cons (infer_reads raw _ item ty first)
        (inferTuple_reads rest _ items types others)

theorem inferItems_reads : (raws : List Surface.Expr) → (element : Option Ty) →
    (items : List Expr) → (final : Option Ty) →
    inferItems table scope element raws = .ok (items, final) → SameReadsOfList name raws items
  | [], _, _, _, accepted => by
      rw [inferItems] at accepted
      obtain ⟨rfl, -⟩ := Prod.mk.inj (Except.ok.inj accepted)
      exact sameReads_nil
  | raw :: rest, element, _, _, accepted => by
      rw [inferItems] at accepted
      obtain ⟨⟨item, element'⟩, first, accepted⟩ := (except_bind_ok_iff _ _ _).mp accepted
      obtain ⟨⟨items, final⟩, others, answered⟩ := (except_bind_ok_iff _ _ _).mp accepted
      obtain ⟨rfl, -⟩ := Prod.mk.inj (Except.ok.inj answered)
      obtain ⟨t, rfl, inferred, -⟩ := slot_ok _ _ _ _ _ _ first
      exact sameReads_cons (infer_reads raw _ item t inferred)
        (inferItems_reads rest _ items final others)

theorem inferEntries_reads : (raws : List (Surface.Expr × Surface.Expr)) →
    (key value : Option Ty) → (entries : List (Expr × Expr)) → (finalKey finalValue : Option Ty) →
    inferEntries table scope key value raws = .ok (entries, finalKey, finalValue) →
      (name ∈ Expr.variableNamesOfEntries entries ↔
        ∃ raw ∈ raws.flatMap fun entry => [entry.1, entry.2], raw.Mentions name)
  | [], _, _, _, _, _, accepted => by
      rw [inferEntries] at accepted
      obtain ⟨rfl, -⟩ := Prod.mk.inj (Except.ok.inj accepted)
      simp [Expr.variableNamesOfEntries]
  | (rawKey, rawValue) :: rest, key, value, _, _, _, accepted => by
      rw [inferEntries] at accepted
      obtain ⟨⟨k, key'⟩, first, accepted⟩ := (except_bind_ok_iff _ _ _).mp accepted
      obtain ⟨⟨v, value'⟩, second, accepted⟩ := (except_bind_ok_iff _ _ _).mp accepted
      obtain ⟨⟨entries, finalKey, finalValue⟩, others, answered⟩ :=
        (except_bind_ok_iff _ _ _).mp accepted
      obtain ⟨rfl, -⟩ := Prod.mk.inj (Except.ok.inj answered)
      obtain ⟨t, rfl, keyInferred, -⟩ := slot_ok _ _ _ _ _ _ first
      obtain ⟨u, rfl, valueInferred, -⟩ := slot_ok _ _ _ _ _ _ second
      have ofKey := infer_reads rawKey _ k t keyInferred
      have ofValue := infer_reads rawValue _ v u valueInferred
      have ofRest := inferEntries_reads rest _ _ entries finalKey finalValue others
      unfold SameReads at ofKey ofValue
      simp [Expr.variableNamesOfEntries, ofKey, ofValue, ofRest]

theorem inferAlternatives_reads : (raws : List Surface.Expr) → (ty : Ty) → (exprs : List Expr) →
    inferAlternatives table scope ty raws = .ok exprs → SameReadsOfList name raws exprs
  | [], _, _, accepted => by
      rw [inferAlternatives] at accepted
      obtain rfl := Except.ok.inj accepted
      exact sameReads_nil
  | raw :: rest, ty, _, accepted => by
      rw [inferAlternatives] at accepted
      obtain ⟨expr, checked, accepted⟩ := (except_bind_ok_iff _ _ _).mp accepted
      obtain ⟨exprs, others, answered⟩ := (except_bind_ok_iff _ _ _).mp accepted
      obtain rfl := Except.ok.inj answered
      exact sameReads_cons (infer_reads raw _ expr ty ((expect_ok_iff _ _ _ _ _).mp checked))
        (inferAlternatives_reads rest ty exprs others)
end

end Typing

namespace Resolution

open Typing (SameReads SameReadsOfList sameReads_nil sameReads_cons)

variable {name : String}

theorem check_reads (table : BuiltinTable) (scope : Scope) (context : String) (ty : Ty)
    (raw : Surface.Expr) (expr : Expr)
    (accepted : Typing.check table scope context ty raw = .ok expr) : SameReads name raw expr :=
  Typing.infer_reads raw (some ty) expr ty ((Typing.expect_ok_iff _ _ _ _ _).mp accepted)

theorem checkAll_reads (table : BuiltinTable) (scope : Scope) (context : String)
    (raws : List Surface.Expr) (types : List Ty) (exprs : List Expr)
    (counted : raws.length = types.length)
    (accepted : checkAll table scope context raws types = .ok exprs) :
    SameReadsOfList name raws exprs := by
  induction raws generalizing types exprs with
  | nil =>
      obtain rfl := List.eq_nil_of_length_eq_zero counted.symm
      obtain rfl := Except.ok.inj accepted
      exact sameReads_nil
  | cons raw rest ih =>
      cases types with
      | nil => simp at counted
      | cons ty types =>
          simp only [checkAll, except_bind_ok_iff] at accepted
          obtain ⟨expr, first, others, later, answered⟩ := accepted
          obtain rfl := Except.ok.inj answered
          exact sameReads_cons (check_reads table scope context ty raw expr first)
            (ih types others (by simpa using counted) later)

theorem arguments_reads (table : BuiltinTable) (scope : Scope) (context : String)
    (position : Position) (types : List Ty) (raws : List Surface.Expr) (expr : Expr)
    (accepted : arguments table scope context position types raws = .ok expr) :
    name ∈ expr.variableNames ↔ ∃ raw ∈ raws, raw.Mentions name := by
  unfold arguments at accepted
  split at accepted
  · next counted =>
      obtain ⟨items, checked, answered⟩ := (except_bind_ok_iff _ _ _).mp accepted
      obtain rfl := Except.ok.inj answered
      rw [Expr.variableNames]
      exact checkAll_reads table scope context raws types items counted checked
  · obtain ⟨found, _, refused⟩ := (except_bind_ok_iff _ _ _).mp accepted
    cases refused

structure SameUses (name : String) (raw : Surface.Statement) (s : Statement) : Prop where
  assigns : name ∈ s.assigned ↔ ∃ pos value, raw = .assign pos name value
  reads : name ∈ s.variableNames ↔ ∃ expr ∈ raw.expressions, expr.Mentions name

theorem statement_uses (ctx : Context) (scope : Scope) (reply : Option (List Ty))
    (raw : Surface.Statement) (s : Statement) (accepted : statement ctx scope reply raw = .ok s) :
    SameUses name raw s := by
  cases raw with
  | assign position written value =>
      simp only [statement] at accepted
      split at accepted
      · cases accepted
      · split at accepted
        · cases accepted
        · obtain ⟨expr, checked, answered⟩ := (except_bind_ok_iff _ _ _).mp accepted
          obtain rfl := Except.ok.inj answered
          have reads : name ∈ expr.variableNames ↔ value.Mentions name :=
            check_reads _ _ _ _ value expr checked
          constructor
          · simp [Statement.assigned, eq_comm]
          · simpa [Statement.variableNames, Surface.Statement.expressions] using reads
  | reply position values =>
      simp only [statement] at accepted
      split at accepted
      · cases accepted
      · obtain ⟨payload, checked, answered⟩ := (except_bind_ok_iff _ _ _).mp accepted
        obtain rfl := Except.ok.inj answered
        exact ⟨by simp [Statement.assigned], arguments_reads _ _ _ _ _ values payload checked⟩
  | emit position signal values =>
      obtain ⟨⟨interface, signal⟩, found, accepted⟩ := (except_bind_ok_iff _ _ _).mp accepted
      obtain ⟨payload, checked, answered⟩ := (except_bind_ok_iff _ _ _).mp accepted
      obtain rfl := Except.ok.inj answered
      exact ⟨by simp [Statement.assigned], arguments_reads _ _ _ _ _ values payload checked⟩
  | throw position error message =>
      cases message with
      | none =>
          obtain rfl := Except.ok.inj accepted
          constructor <;>
            simp [Statement.assigned, Statement.variableNames, Surface.Statement.expressions]
      | some message =>
          obtain ⟨expr, checked, answered⟩ := (except_bind_ok_iff _ _ _).mp accepted
          obtain rfl := Except.ok.inj answered
          have reads : name ∈ expr.variableNames ↔ message.Mentions name :=
            check_reads _ _ _ _ message expr checked
          refine ⟨by simp [Statement.assigned], ?_⟩
          simpa [Statement.variableNames, Surface.Statement.expressions] using reads

theorem body_uses (ctx : Context) (scope : Scope) (reply : Option (List Ty))
    (raws : List Surface.Statement) (statements : List Statement)
    (accepted : body ctx scope reply raws = .ok statements) :
    List.Forall₂ (SameUses name) raws statements := by
  induction raws generalizing statements with
  | nil =>
      obtain rfl := Except.ok.inj accepted
      exact .nil
  | cons raw rest ih =>
      simp only [body, except_bind_ok_iff] at accepted
      obtain ⟨first, here, others, later, answered⟩ := accepted
      obtain rfl := Except.ok.inj answered
      exact .cons (statement_uses ctx scope reply raw first here) (ih others later)

theorem exists_mem_iff_of_forall₂ {α β : Type} {p : α → Prop} {q : β → Prop} {left : List α}
    {right : List β} (same : List.Forall₂ (fun a b => q b ↔ p a) left right) :
    (∃ b ∈ right, q b) ↔ ∃ a ∈ left, p a := by
  induction same with
  | nil => simp
  | cons here _ ih => simp [here, ih]

theorem preconditions_reads (ctx : Context) (scope : Scope) (raws : List Surface.Precondition)
    (conditions : List Precondition) (accepted : preconditions ctx scope raws = .ok conditions) :
    List.Forall₂ (fun raw p => SameReads name raw.condition p.condition) raws conditions := by
  induction raws generalizing conditions with
  | nil =>
      obtain rfl := Except.ok.inj accepted
      exact .nil
  | cons raw rest ih =>
      simp only [preconditions, except_bind_ok_iff] at accepted
      obtain ⟨condition, here, others, later, answered⟩ := accepted
      obtain rfl := Except.ok.inj answered
      exact .cons (check_reads ctx.table scope _ .bool raw.condition condition here)
        (ih others later)

theorem usedData_iff {ctx : Context} {raw : Surface.Transition} {t : Transition}
    {info : TriggerInfo} (answers : ResolvedTransition ctx raw t info) :
    name ∈ t.usedData ↔ raw.Assigns name ∨ raw.ReadsData t.parameters name := by
  have inBody : List.Forall₂ (SameUses name) raw.body t.body :=
    body_uses ctx _ _ raw.body t.body answers.bodied
  have assigned := exists_mem_iff_of_forall₂ (inBody.imp fun _ _ => SameUses.assigns)
  have read := exists_mem_iff_of_forall₂ (inBody.imp fun _ _ => SameUses.reads)
  have guards : (∃ p ∈ t.preconditions, name ∈ p.condition.variableNames) ↔
      ∃ p ∈ raw.preconditions, p.condition.Mentions name :=
    exists_mem_iff_of_forall₂
      (preconditions_reads ctx _ raw.preconditions t.preconditions answers.guarded)
  have ofBody : name ∈ t.body.flatMap Statement.assigned ↔ raw.Assigns name := by
    rw [List.mem_flatMap, assigned]
    constructor
    · rintro ⟨_, member, pos, value, rfl⟩
      exact ⟨pos, value, member⟩
    · rintro ⟨pos, value, member⟩
      exact ⟨_, member, pos, value, rfl⟩
  have ofReads : name ∈ t.readData ↔ raw.ReadsData t.parameters name := by
    have unshadowed : (!t.parameters.any (·.1 == name)) = true ↔
        name ∉ t.parameters.map Prod.fst := by
      rw [Bool.not_eq_true', List.any_eq_false, List.mem_map, not_exists]
      simp only [beq_iff_eq, not_and]
    rw [Transition.readData, List.mem_filter, List.mem_append, List.mem_flatMap, List.mem_flatMap,
      guards, read, ← raw.exists_mentions_iff, unshadowed]
    exact and_comm
  rw [Transition.usedData, List.mem_append, ofBody, ofReads, or_comm]

end Resolution

end SimBus
