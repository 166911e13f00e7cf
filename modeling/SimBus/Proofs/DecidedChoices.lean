import SimBus.Proofs.Drawless
/-!
What `choose` means. Deciding an expression puts one of its alternatives in the place
of every choice, each time it occurs. The outcomes that an expression can have are the
outcomes of the expressions it can be decided to, and these leave nothing to chance.
-/

namespace SimBus

open Draws (Branch branch_pure_iff branch_run_bind_ok_iff branch_run_bind_error_iff)

namespace Expr

mutual
/-- Whether `choose` alone leaves something to chance, and always has alternatives:
nothing in the expression calls `freshObjectPath`. -/
def onlyChooses : Expr → Bool
  | literal _ | var _ _ => true
  | call function argument => function != Builtin.freshObjectPath.name && onlyChooses argument
  | tuple items | array _ items => allOnlyChoose items
  | dict _ _ entries => entriesOnlyChoose entries
  | variant inner | objectPath inner | not inner | negate inner => onlyChooses inner
  | binary _ lhs rhs => onlyChooses lhs && onlyChooses rhs
  | choice alternatives => !alternatives.isEmpty && allOnlyChoose alternatives

def allOnlyChoose : List Expr → Bool
  | [] => true
  | item :: rest => onlyChooses item && allOnlyChoose rest

def entriesOnlyChoose : List (Expr × Expr) → Bool
  | [] => true
  | (key, value) :: rest => onlyChooses key && onlyChooses value && entriesOnlyChoose rest
end

mutual
/-- The second expression is the first with every choice decided. -/
inductive Decides : Expr → Expr → Prop where
  | literal (value : Value) : Decides (literal value) (literal value)
  | var (name : String) (ty : Ty) : Decides (var name ty) (var name ty)
  | call (function : String) {argument argument' : Expr} :
      Decides argument argument' → Decides (call function argument) (call function argument')
  | tuple {items items' : List Expr} :
      DecidesAll items items' → Decides (tuple items) (tuple items')
  | array (element : Ty) {items items' : List Expr} :
      DecidesAll items items' → Decides (array element items) (array element items')
  | dict (key value : Ty) {entries entries' : List (Expr × Expr)} :
      DecidesEntries entries entries' → Decides (dict key value entries) (dict key value entries')
  | variant {inner inner' : Expr} : Decides inner inner' → Decides (variant inner) (variant inner')
  | objectPath {inner inner' : Expr} :
      Decides inner inner' → Decides (objectPath inner) (objectPath inner')
  | not {operand operand' : Expr} : Decides operand operand' → Decides (not operand) (not operand')
  | negate {operand operand' : Expr} :
      Decides operand operand' → Decides (negate operand) (negate operand')
  | binary (op : BinaryOp) {lhs lhs' rhs rhs' : Expr} :
      Decides lhs lhs' → Decides rhs rhs' → Decides (binary op lhs rhs) (binary op lhs' rhs')
  | choice {alternatives : List Expr} {taken decided : Expr} :
      taken ∈ alternatives → Decides taken decided → Decides (choice alternatives) decided

inductive DecidesAll : List Expr → List Expr → Prop where
  | nil : DecidesAll [] []
  | cons {item item' : Expr} {rest rest' : List Expr} :
      Decides item item' → DecidesAll rest rest' → DecidesAll (item :: rest) (item' :: rest')

inductive DecidesEntries : List (Expr × Expr) → List (Expr × Expr) → Prop where
  | nil : DecidesEntries [] []
  | cons {key key' value value' : Expr} {rest rest' : List (Expr × Expr)} :
      Decides key key' → Decides value value' → DecidesEntries rest rest' →
      DecidesEntries ((key, value) :: rest) ((key', value') :: rest')
end

mutual
theorem decides_exists : (e : Expr) → (only : e.onlyChooses = true) → ∃ r, Decides e r
  | literal value, _ => ⟨_, .literal value⟩
  | var name ty, _ => ⟨_, .var name ty⟩
  | call function argument, only => by
      simp only [onlyChooses, Bool.and_eq_true] at only
      obtain ⟨r, decided⟩ := decides_exists argument only.2
      exact ⟨_, .call function decided⟩
  | tuple items, only => by
      obtain ⟨rs, decided⟩ := decidesAll_exists items only
      exact ⟨_, .tuple decided⟩
  | array element items, only => by
      obtain ⟨rs, decided⟩ := decidesAll_exists items only
      exact ⟨_, .array element decided⟩
  | dict key value entries, only => by
      obtain ⟨rs, decided⟩ := decidesEntries_exists entries only
      exact ⟨_, .dict key value decided⟩
  | variant inner, only => by
      obtain ⟨r, decided⟩ := decides_exists inner only
      exact ⟨_, .variant decided⟩
  | objectPath inner, only => by
      obtain ⟨r, decided⟩ := decides_exists inner only
      exact ⟨_, .objectPath decided⟩
  | not operand, only => by
      obtain ⟨r, decided⟩ := decides_exists operand only
      exact ⟨_, .not decided⟩
  | negate operand, only => by
      obtain ⟨r, decided⟩ := decides_exists operand only
      exact ⟨_, .negate decided⟩
  | binary op lhs rhs, only => by
      simp only [onlyChooses, Bool.and_eq_true] at only
      obtain ⟨l, left⟩ := decides_exists lhs only.1
      obtain ⟨r, right⟩ := decides_exists rhs only.2
      exact ⟨_, .binary op left right⟩
  | choice [], only => by simp [onlyChooses] at only
  | choice (first :: others), only => by
      simp only [onlyChooses, allOnlyChoose, Bool.and_eq_true] at only
      obtain ⟨r, decided⟩ := decides_exists first only.2.1
      exact ⟨r, .choice List.mem_cons_self decided⟩

theorem decidesAll_exists : (items : List Expr) → (only : allOnlyChoose items = true) →
    ∃ rs, DecidesAll items rs
  | [], _ => ⟨[], .nil⟩
  | item :: rest, only => by
      simp only [allOnlyChoose, Bool.and_eq_true] at only
      obtain ⟨r, decided⟩ := decides_exists item only.1
      obtain ⟨rs, others⟩ := decidesAll_exists rest only.2
      exact ⟨r :: rs, .cons decided others⟩

theorem decidesEntries_exists : (entries : List (Expr × Expr)) →
    (only : entriesOnlyChoose entries = true) → ∃ rs, DecidesEntries entries rs
  | [], _ => ⟨[], .nil⟩
  | (key, value) :: rest, only => by
      simp only [entriesOnlyChoose, Bool.and_eq_true] at only
      obtain ⟨k, decidedKey⟩ := decides_exists key only.1.1
      obtain ⟨v, decidedValue⟩ := decides_exists value only.1.2
      obtain ⟨rs, others⟩ := decidesEntries_exists rest only.2
      exact ⟨(k, v) :: rs, .cons decidedKey decidedValue others⟩
end

mutual
theorem decides_isFixed : (e : Expr) → (only : e.onlyChooses = true) → (r : Expr) →
    Decides e r → r.isFixed = true
  | literal _, _, _, .literal _ | var _ _, _, _, .var _ _ => rfl
  | call _ argument, only, _, .call _ decided => by
      simp only [onlyChooses, Bool.and_eq_true] at only
      simp only [isFixed, Bool.and_eq_true]
      exact ⟨only.1, decides_isFixed argument only.2 _ decided⟩
  | tuple items, only, _, .tuple decided => decidesAll_allFixed items only _ decided
  | array _ items, only, _, .array _ decided => decidesAll_allFixed items only _ decided
  | dict _ _ entries, only, _, .dict _ _ decided =>
      decidesEntries_entriesFixed entries only _ decided
  | variant inner, only, _, .variant decided => (decides_isFixed inner only _ decided :)
  | objectPath inner, only, _, .objectPath decided => (decides_isFixed inner only _ decided :)
  | not operand, only, _, .not decided => (decides_isFixed operand only _ decided :)
  | negate operand, only, _, .negate decided => (decides_isFixed operand only _ decided :)
  | binary _ lhs rhs, only, _, .binary _ left right => by
      simp only [onlyChooses, Bool.and_eq_true] at only
      simp only [isFixed, Bool.and_eq_true]
      exact ⟨decides_isFixed lhs only.1 _ left, decides_isFixed rhs only.2 _ right⟩
  | choice alternatives, only, r, .choice taken decided => by
      simp only [onlyChooses, Bool.and_eq_true] at only
      exact decides_isFixed_taken alternatives only.2 _ taken r decided

theorem decides_isFixed_taken : (items : List Expr) → (only : allOnlyChoose items = true) →
    (taken : Expr) → taken ∈ items → (r : Expr) → Decides taken r → r.isFixed = true
  | item :: rest, only, taken, member, r, decided => by
      simp only [allOnlyChoose, Bool.and_eq_true] at only
      rcases List.mem_cons.mp member with same | later
      · exact decides_isFixed item only.1 r (same ▸ decided)
      · exact decides_isFixed_taken rest only.2 taken later r decided

theorem decidesAll_allFixed : (items : List Expr) → (only : allOnlyChoose items = true) →
    (rs : List Expr) → DecidesAll items rs → allFixed rs = true
  | [], _, _, .nil => rfl
  | item :: rest, only, _, .cons decided others => by
      simp only [allOnlyChoose, Bool.and_eq_true] at only
      simp only [allFixed, Bool.and_eq_true]
      exact ⟨decides_isFixed item only.1 _ decided, decidesAll_allFixed rest only.2 _ others⟩

theorem decidesEntries_entriesFixed : (entries : List (Expr × Expr)) →
    (only : entriesOnlyChoose entries = true) → (rs : List (Expr × Expr)) →
    DecidesEntries entries rs → entriesFixed rs = true
  | [], _, _, .nil => rfl
  | (key, value) :: rest, only, _, .cons decidedKey decidedValue others => by
      simp only [entriesOnlyChoose, Bool.and_eq_true] at only
      simp only [entriesFixed, Bool.and_eq_true]
      exact ⟨⟨decides_isFixed key only.1.1 _ decidedKey,
        decides_isFixed value only.1.2 _ decidedValue⟩,
        decidesEntries_entriesFixed rest only.2 _ others⟩
end

end Expr

namespace Eval

variable {α β ι κ : Type}

/-- What the computation can come to is what the members of a family can come to. -/
def Spans (m : Eval α) (among : ι → Prop) (member : ι → Eval α) : Prop :=
  ∀ result, Branch m.run result ↔ ∃ i, among i ∧ Branch (member i).run result

theorem spans_single (m : Eval α) : Spans m (fun _ : Unit => True) fun _ => m := by
  intro result
  simp

theorem branch_run_bind_iff (m : Eval α) (f : α → Eval β) (result : Except EvalError β) :
    Branch (m >>= f).run result ↔ (∃ e, result = .error e ∧ Branch m.run (.error e)) ∨
      ∃ a, Branch m.run (.ok a) ∧ Branch (f a).run result := by
  cases result with
  | ok b =>
      rw [branch_run_bind_ok_iff]
      simp
  | error e =>
      rw [branch_run_bind_error_iff]
      simp

/-- A family for the first computation and one for the rest make one for both. The rest
needs a member even where the first computation fails. -/
theorem spans_bind {m : Eval α} {f : α → Eval β} {among : ι → Prop} {member : ι → Eval α}
    {amongRest : κ → Prop} {memberRest : κ → α → Eval β} (first : Spans m among member)
    (rest : ∀ a, Spans (f a) amongRest fun k => memberRest k a) (inhabited : ∃ k, amongRest k) :
    Spans (m >>= f) (fun p : ι × κ => among p.1 ∧ amongRest p.2)
      fun p => member p.1 >>= memberRest p.2 := by
  intro result
  rw [branch_run_bind_iff]
  constructor
  · rintro (⟨e, rfl, failed⟩ | ⟨a, before, after⟩)
    · obtain ⟨i, qualifies, failed⟩ := (first _).mp failed
      obtain ⟨k, qualifiesRest⟩ := inhabited
      exact ⟨(i, k), ⟨qualifies, qualifiesRest⟩,
        (branch_run_bind_iff _ _ _).mpr (.inl ⟨e, rfl, failed⟩)⟩
    · obtain ⟨i, qualifies, before⟩ := (first _).mp before
      obtain ⟨k, qualifiesRest, after⟩ := (rest a _).mp after
      exact ⟨(i, k), ⟨qualifies, qualifiesRest⟩,
        (branch_run_bind_iff _ _ _).mpr (.inr ⟨a, before, after⟩)⟩
  · rintro ⟨⟨i, k⟩, ⟨qualifies, qualifiesRest⟩, branch⟩
    rcases (branch_run_bind_iff _ _ _).mp branch with ⟨e, rfl, failed⟩ | ⟨a, before, after⟩
    · exact .inl ⟨e, rfl, (first _).mpr ⟨i, qualifies, failed⟩⟩
    · exact .inr ⟨a, (first _).mpr ⟨i, qualifies, before⟩, (rest a _).mpr ⟨k, qualifiesRest, after⟩⟩

theorem spans_renamed {m : Eval α} {among : ι → Prop} {member : ι → Eval α} {among' : κ → Prop}
    {member' : κ → Eval α} (spans : Spans m among member) (rename : ι → κ)
    (covers : ∀ k, among' k ↔ ∃ i, among i ∧ rename i = k)
    (same : ∀ i, member' (rename i) = member i) : Spans m among' member' := by
  intro result
  rw [spans result]
  constructor
  · rintro ⟨i, qualifies, branch⟩
    exact ⟨rename i, (covers _).mpr ⟨i, qualifies, rfl⟩, same i ▸ branch⟩
  · rintro ⟨k, qualifies, branch⟩
    obtain ⟨i, qualifiesHere, rfl⟩ := (covers k).mp qualifies
    exact ⟨i, qualifiesHere, same i ▸ branch⟩

theorem spans_then {m : Eval α} {among : ι → Prop} {member : ι → Eval α}
    (first : Spans m among member) (f : α → Eval β) :
    Spans (m >>= f) among fun i => member i >>= f :=
  spans_renamed (spans_bind first (fun a => spans_single (f a)) ⟨(), trivial⟩) Prod.fst
    (by simp) fun _ => rfl

theorem spans_after (m : Eval α) {f : α → Eval β} {among : ι → Prop} {member : ι → α → Eval β}
    (rest : ∀ a, Spans (f a) among fun i => member i a) (inhabited : ∃ i, among i) :
    Spans (m >>= f) among fun i => m >>= member i :=
  spans_renamed (spans_bind (spans_single m) rest inhabited) Prod.snd (by simp) fun _ => rfl

theorem spans_constant (m : Eval α) {among : ι → Prop} (inhabited : ∃ i, among i) :
    Spans m among fun _ => m := by
  obtain ⟨i, qualifies⟩ := inhabited
  exact fun result => ⟨fun branch => ⟨i, qualifies, branch⟩, fun ⟨_, _, branch⟩ => branch⟩

end Eval

namespace Expr

open Eval (Spans spans_single spans_bind spans_renamed spans_then spans_after spans_constant)

variable (ctx : EvalContext)

/-- The outcomes of the expression are those of the expressions that it can be decided to. -/
abbrev Spanned (e : Expr) : Prop := Spans (e.eval ctx) (Decides e) fun r => r.eval ctx

theorem evalNth_getElem (items : List Expr) (n : Nat) (inRange : n < items.length) :
    evalNth ctx items n = items[n].eval ctx := by
  induction items generalizing n with
  | nil => simp at inRange
  | cons item rest ih =>
      cases n with
      | zero => rfl
      | succ n => exact ih n (by simpa using inRange)

theorem choice_branch_iff (alternatives : List Expr) (some : alternatives ≠ [])
    (result : Except EvalError Value) :
    Branch ((choice alternatives).eval ctx).run result ↔
      ∃ taken ∈ alternatives, Branch (taken.eval ctx).run result := by
  obtain ⟨first, others, rfl⟩ := List.exists_cons_of_ne_nil some
  have picked (i : Fin (others.length + 1)) :
      (if i.val = 0 then first.eval ctx else evalNth ctx others (i.val - 1)) =
        ((first :: others)[i.val]).eval ctx := by
    split
    · next zero => simp [zero]
    · next more =>
        obtain ⟨n, same⟩ := Nat.exists_eq_succ_of_ne_zero more
        have inRange : n < others.length := by omega
        simpa [same] using evalNth_getElem ctx others n inRange
  have drawn : ((choice (first :: others)).eval ctx).run =
      Draws.index .bits64 others.length fun i => (((first :: others)[i.val]).eval ctx).run := by
    rw [eval]
    exact congrArg (Draws.index .bits64 others.length)
      (funext fun i => congrArg ExceptT.run (picked i))
  rw [drawn]
  constructor
  · rintro ⟨⟩
    next i branch => exact ⟨_, List.getElem_mem _, branch⟩
  · rintro ⟨taken, member, branch⟩
    obtain ⟨n, inRange, rfl⟩ := List.getElem_of_mem member
    exact .index ⟨n, inRange⟩ branch

theorem spans_if {α : Type} {m m' : Eval α} {among : Expr → Prop} {member member' : Expr → Eval α}
    (spans : Spans m among member) (spans' : Spans m' among member') (flag : Bool) :
    Spans (if flag then m else m') among fun r => if flag then member r else member' r := by
  cases flag with
  | true => exact spans
  | false => exact spans'

/-- The second operand of a logical operator counts for one value of the first only, but
it can be decided all the same. -/
theorem binary_spanned (op : BinaryOp) (lhs rhs : Expr) (left : lhs.Spanned ctx)
    (right : rhs.Spanned ctx) (decidable : ∃ r, Decides rhs r) :
    (binary op lhs rhs).Spanned ctx := by
  have covers (r : Expr) : Decides (binary op lhs rhs) r ↔
      ∃ p : Expr × Expr, (Decides lhs p.1 ∧ Decides rhs p.2) ∧ binary op p.1 p.2 = r := by
    constructor
    · rintro ⟨⟩
      exact ⟨(_, _), ⟨‹_›, ‹_›⟩, rfl⟩
    · rintro ⟨p, ⟨decidesLeft, decidesRight⟩, rfl⟩
      exact .binary op decidesLeft decidesRight
  have second (op : BinaryOp) := spans_then right fun v => do
    pure (Value.bool (← Eval.ofExcept (Operator.flag op v)))
  have shortcut (flag : Bool) := spans_constant (pure (Value.bool flag) : Eval Value) decidable
  cases op with
  | and =>
      have rest (v : Value) := spans_after (Eval.ofExcept (Operator.flag .and v))
        (spans_if (second .and) (shortcut false)) decidable
      exact spans_renamed (spans_bind left rest decidable) _ covers fun _ => rfl
  | or =>
      have rest (v : Value) := spans_after (Eval.ofExcept (Operator.flag .or v))
        (spans_if (shortcut true) (second .or)) decidable
      exact spans_renamed (spans_bind left rest decidable) _ covers fun _ => rfl
  | _ =>
      exact spans_renamed (spans_bind left (fun _ => spans_then right _) decidable) _ covers
        fun _ => rfl

theorem choice_spanned (alternatives : List Expr) (some : alternatives ≠ [])
    (each : ∀ taken ∈ alternatives, taken.Spanned ctx) : (choice alternatives).Spanned ctx := by
  intro result
  rw [choice_branch_iff ctx alternatives some]
  constructor
  · rintro ⟨taken, member, branch⟩
    obtain ⟨r, decided, branch⟩ := (each taken member result).mp branch
    exact ⟨r, .choice member decided, branch⟩
  · rintro ⟨r, ⟨⟩, branch⟩
    next taken member decided =>
      exact ⟨taken, member, (each taken member result).mpr ⟨r, decided, branch⟩⟩

mutual
theorem eval_spanned : (e : Expr) → (only : e.onlyChooses = true) → e.Spanned ctx
  | literal value, _ =>
      spans_renamed (spans_single _) (fun _ => literal value)
        (fun _ => ⟨fun | .literal _ => ⟨(), trivial, rfl⟩,
          fun ⟨_, _, same⟩ => same ▸ .literal value⟩)
        fun _ => rfl
  | var name ty, _ =>
      spans_renamed (spans_single _) (fun _ => var name ty)
        (fun _ => ⟨fun | .var _ _ => ⟨(), trivial, rfl⟩, fun ⟨_, _, same⟩ => same ▸ .var name ty⟩)
        fun _ => rfl
  | call function argument, only => by
      simp only [onlyChooses, Bool.and_eq_true] at only
      exact spans_renamed (spans_then (eval_spanned argument only.2) _) (call function)
        (fun _ => ⟨fun | .call _ decided => ⟨_, decided, rfl⟩,
          fun ⟨_, decided, same⟩ => same ▸ .call function decided⟩) fun _ => rfl
  | tuple items, only =>
      spans_renamed (spans_then (evalList_spanned items only) _) tuple
        (fun _ => ⟨fun | .tuple decided => ⟨_, decided, rfl⟩,
          fun ⟨_, decided, same⟩ => same ▸ .tuple decided⟩) fun _ => rfl
  | array element items, only =>
      spans_renamed (spans_then (evalList_spanned items only) _) (array element)
        (fun _ => ⟨fun | .array _ decided => ⟨_, decided, rfl⟩,
          fun ⟨_, decided, same⟩ => same ▸ .array element decided⟩) fun _ => rfl
  | dict key value entries, only =>
      spans_renamed (spans_then (evalEntries_spanned entries only) _) (dict key value)
        (fun _ => ⟨fun | .dict _ _ decided => ⟨_, decided, rfl⟩,
          fun ⟨_, decided, same⟩ => same ▸ .dict key value decided⟩) fun _ => rfl
  | variant inner, only =>
      spans_renamed (spans_then (eval_spanned inner only) _) variant
        (fun _ => ⟨fun | .variant decided => ⟨_, decided, rfl⟩,
          fun ⟨_, decided, same⟩ => same ▸ .variant decided⟩) fun _ => rfl
  | objectPath inner, only =>
      spans_renamed (spans_then (eval_spanned inner only) _) objectPath
        (fun _ => ⟨fun | .objectPath decided => ⟨_, decided, rfl⟩,
          fun ⟨_, decided, same⟩ => same ▸ .objectPath decided⟩) fun _ => rfl
  | not operand, only =>
      spans_renamed (spans_then (eval_spanned operand only) _) not
        (fun _ => ⟨fun | .not decided => ⟨_, decided, rfl⟩,
          fun ⟨_, decided, same⟩ => same ▸ .not decided⟩) fun _ => rfl
  | negate operand, only =>
      spans_renamed (spans_then (eval_spanned operand only) _) negate
        (fun _ => ⟨fun | .negate decided => ⟨_, decided, rfl⟩,
          fun ⟨_, decided, same⟩ => same ▸ .negate decided⟩) fun _ => rfl
  | binary op lhs rhs, only => by
      simp only [onlyChooses, Bool.and_eq_true] at only
      exact binary_spanned ctx op lhs rhs (eval_spanned lhs only.1) (eval_spanned rhs only.2)
        (decides_exists rhs only.2)
  | choice alternatives, only => by
      simp only [onlyChooses, Bool.and_eq_true] at only
      exact choice_spanned ctx alternatives (by simpa using only.1)
        (each_spanned alternatives only.2)

theorem each_spanned : (items : List Expr) → (only : allOnlyChoose items = true) →
    ∀ item ∈ items, item.Spanned ctx
  | [], _ => fun _ member => nomatch member
  | item :: rest, only => by
      simp only [allOnlyChoose, Bool.and_eq_true] at only
      exact List.forall_mem_cons.mpr ⟨eval_spanned item only.1, each_spanned rest only.2⟩

theorem evalList_spanned : (items : List Expr) → (only : allOnlyChoose items = true) →
    Spans (evalList ctx items) (DecidesAll items) (evalList ctx)
  | [], _ =>
      spans_renamed (spans_single _) (fun _ => [])
        (fun _ => ⟨fun | .nil => ⟨(), trivial, rfl⟩, fun ⟨_, _, same⟩ => same ▸ .nil⟩) fun _ => rfl
  | item :: rest, only => by
      simp only [allOnlyChoose, Bool.and_eq_true] at only
      exact spans_renamed
        (spans_bind (eval_spanned item only.1)
          (fun _ => spans_then (evalList_spanned rest only.2) _) (decidesAll_exists rest only.2))
        (fun p => p.1 :: p.2)
        (fun _ => ⟨fun | .cons decided others => ⟨(_, _), ⟨decided, others⟩, rfl⟩,
          fun ⟨_, ⟨decided, others⟩, same⟩ => same ▸ .cons decided others⟩) fun _ => rfl

theorem evalEntries_spanned : (entries : List (Expr × Expr)) →
    (only : entriesOnlyChoose entries = true) →
    Spans (evalEntries ctx entries) (DecidesEntries entries) (evalEntries ctx)
  | [], _ =>
      spans_renamed (spans_single _) (fun _ => [])
        (fun _ => ⟨fun | .nil => ⟨(), trivial, rfl⟩, fun ⟨_, _, same⟩ => same ▸ .nil⟩) fun _ => rfl
  | (key, value) :: rest, only => by
      simp only [entriesOnlyChoose, Bool.and_eq_true] at only
      -- Where a key fails, its value and the entries behind are decided in just any way.
      obtain ⟨v, decidedValue⟩ := decides_exists value only.1.2
      obtain ⟨es, decidedRest⟩ := decidesEntries_exists rest only.2
      have others (k v : Value) := spans_then (evalEntries_spanned rest only.2)
        fun pairs => (pure ((k, v) :: pairs) : Eval (List (Value × Value)))
      have values (k : Value) :=
        spans_bind (eval_spanned value only.1.2) (others k) ⟨es, decidedRest⟩
      exact spans_renamed
        (spans_bind (eval_spanned key only.1.1) values ⟨(v, es), decidedValue, decidedRest⟩)
        (fun p => (p.1, p.2.1) :: p.2.2)
        (fun _ => ⟨fun | .cons first second more => ⟨(_, _, _), ⟨first, second, more⟩, rfl⟩,
          fun ⟨_, ⟨first, second, more⟩, same⟩ => same ▸ .cons first second more⟩) fun _ => rfl
end

def outcome {σ : Type} (e : Expr) (source : RandomSource σ) (s : σ) : Except EvalError Value :=
  ((e.eval ctx).run.run source s).1

theorem decided_outcome (table : ctx.builtins.Drawless) (e r : Expr) (only : e.onlyChooses = true)
    (decided : Decides e r) (result : Except EvalError Value)
    (branch : Branch (r.eval ctx).run result)
    {σ : Type} (source : RandomSource σ) (s : σ) : r.outcome ctx source s = result := by
  have drawless := eval_drawless ctx table r (decides_isFixed e only r decided)
  obtain ⟨made, alone⟩ := (Draws.drawless_iff _).mp drawless
  rw [alone, branch_pure_iff] at branch
  rw [outcome, alone, branch]
  rfl

/-- With every source an expression comes to what it comes to when its choices are
decided in some way, and for every way to decide them there are answers with which it
comes to that. -/
theorem choices_decided (e : Expr) (only : e.onlyChooses = true) (env : Environment)
    (locals : List (String × Value)) :
    (∀ {σ : Type} (source : RandomSource σ) (s : σ), ∃ r, Decides e r ∧
      ∀ {τ : Type} (other : RandomSource τ) (t : τ),
        r.outcome ⟨Builtin.standard, env, locals⟩ other t =
          e.outcome ⟨Builtin.standard, env, locals⟩ source s) ∧
    ∀ r, Decides e r → ∃ answers, ∀ {τ : Type} (other : RandomSource τ) (t : τ),
      e.outcome ⟨Builtin.standard, env, locals⟩ Draws.listedAnswers answers =
        r.outcome ⟨Builtin.standard, env, locals⟩ other t := by
  have spanned := eval_spanned ⟨Builtin.standard, env, locals⟩ e only
  have settled := decided_outcome ⟨Builtin.standard, env, locals⟩ Builtin.standard_drawless e
  constructor
  · intro σ source s
    obtain ⟨r, decided, branch⟩ := (spanned _).mp (Draws.run_branch source _ s)
    exact ⟨r, decided, settled r only decided _ branch⟩
  · intro r decided
    obtain ⟨result, branch⟩ := Draws.branch_exists (r.eval ⟨Builtin.standard, env, locals⟩).run
    obtain ⟨answers, reached⟩ :=
      (Draws.branch_iff_run _ _).mp ((spanned _).mpr ⟨r, decided, branch⟩)
    exact ⟨answers, fun other t =>
      reached.trans (settled r only decided result branch other t).symm⟩

def guess (key : Expr) : Expr :=
  .call "dictGet" (.tuple
    [.dict .string .bool [(.literal (.string "a"), .literal (.bool true))], key])

def guessedKey : Expr := .choice [.literal (.string "a"), .literal (.string "b")]

theorem guess_decided :
    (guess guessedKey).onlyChooses = true ∧
      (∃ r, Decides (guess guessedKey) r ∧
        r.outcome ⟨Builtin.standard, [], []⟩ Draws.listedAnswers [1] = .ok (.bool true)) ∧
      Decides (guess guessedKey) (guess (.literal (.string "b"))) ∧
      ∃ answers, (guess guessedKey).outcome ⟨Builtin.standard, [], []⟩ Draws.listedAnswers answers =
        .error (.missingKey (.string "b")) := by
  obtain ⟨sound, complete⟩ := choices_decided (guess guessedKey) rfl [] []
  have missed : Decides (guess guessedKey) (guess (.literal (.string "b"))) := by
    refine .call _
      (.tuple (.cons (.dict _ _ (.cons (.literal _) (.literal _) .nil)) (.cons ?_ .nil)))
    exact .choice (List.mem_cons_of_mem _ List.mem_cons_self) (.literal _)
  obtain ⟨found, decided, same⟩ := sound Draws.listedAnswers [0]
  obtain ⟨answers, reached⟩ := complete _ missed
  exact ⟨rfl, ⟨found, decided, (same Draws.listedAnswers [1]).trans rfl⟩, missed,
    answers, (reached Draws.listedAnswers []).trans rfl⟩

end Expr

end SimBus
