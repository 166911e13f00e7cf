import SimBus.Proofs.DoubleOrder
import SimBus.Value
/-!
Equality of values, over any notion of equal doubles. With equality of numbers
it is the equality that objects see; with a NaN equal to itself it is the one
that a watcher of values needs, which is reflexive. Dictionaries are compared
as sets of entries, each entry of the left one being looked up in the right one.
-/

namespace SimBus.Value

mutual
def alike (same : Float → Float → Bool) : Value → Value → Bool
  | bool a, bool b => a == b
  | int j a, int k b => j == k && a.val == b.val
  | double a, double b => same a b
  | string a, string b => a == b
  | objectPath a, objectPath b => a == b
  | variant a, variant b => alike same a b
  | array e as, array f bs => e == f && alikeList same as bs
  | tuple as, tuple bs => alikeList same as bs
  | dict k v es, dict l w fs =>
      k == l && v == w && es.length == fs.length && alikeWithin same es fs
  | _, _ => false

def alikeList (same : Float → Float → Bool) : List Value → List Value → Bool
  | [], [] => true
  | a :: as, b :: bs => alike same a b && alikeList same as bs
  | _, _ => false

def alikeWithin (same : Float → Float → Bool) :
    List (Value × Value) → List (Value × Value) → Bool
  | [], _ => true
  | (key, value) :: rest, others =>
      others.any (fun other => alike same key other.1 && alike same value other.2) &&
        alikeWithin same rest others
end

def sameDouble (x y : Float) : Bool := x == y || x.isNaN && y.isNaN

/-- Value equality, but that a NaN counts as equal to itself. -/
def agrees (a b : Value) : Bool := alike sameDouble a b

mutual
/-- The equality of the language is the one over equality of numbers. -/
theorem beq_eq_alike (a b : Value) : beq a b = alike (· == ·) a b := by
  cases a with
  | variant a =>
      cases b with
      | variant b => exact beq_eq_alike a b
      | _ => rfl
  | array e as =>
      cases b with
      | array f bs => simp only [beq, alike, beqList_eq_alikeList as bs]
      | _ => rfl
  | tuple as =>
      cases b with
      | tuple bs => exact beqList_eq_alikeList as bs
      | _ => rfl
  | dict k v es =>
      cases b with
      | dict l w fs => simp only [beq, alike, within_eq_alikeWithin es fs]
      | _ => rfl
  | _ => cases b <;> rfl

theorem beqList_eq_alikeList (as bs : List Value) : beqList as bs = alikeList (· == ·) as bs := by
  match as, bs with
  | [], [] => rfl
  | [], _ :: _ => rfl
  | _ :: _, [] => rfl
  | a :: as, b :: bs =>
      simp only [beqList, alikeList, beq_eq_alike a b, beqList_eq_alikeList as bs]

theorem within_eq_alikeWithin (es fs : List (Value × Value)) :
    within es fs = alikeWithin (· == ·) es fs := by
  match es with
  | [] => rfl
  | (key, value) :: rest =>
      simp only [within, alikeWithin, within_eq_alikeWithin rest fs]
      congr 2
      funext other
      rw [beq_eq_alike key other.1, beq_eq_alike value other.2]
end

variable {same then' both : Float → Float → Bool}

theorem alikeWithin_iff (es fs : List (Value × Value)) :
    alikeWithin same es fs = true ↔ ∀ e ∈ es, ∃ f ∈ fs,
      alike same e.1 f.1 = true ∧ alike same e.2 f.2 = true := by
  induction es with
  | nil => simp [alikeWithin]
  | cons e rest ih => simp [alikeWithin, ih, List.any_eq_true]

theorem within_iff (es fs : List (Value × Value)) :
    within es fs = true ↔ ∀ e ∈ es, ∃ f ∈ fs, (e.1 == f.1) = true ∧ (e.2 == f.2) = true := by
  rw [within_eq_alikeWithin, alikeWithin_iff]
  simp only [← beq_eq_alike]
  rfl

mutual
def doubles : Value → List Float
  | double x => [x]
  | variant inner => doubles inner
  | array _ items => doublesOfList items
  | tuple items => doublesOfList items
  | dict _ _ entries => doublesOfEntries entries
  | _ => []

def doublesOfList : List Value → List Float
  | [] => []
  | item :: rest => doubles item ++ doublesOfList rest

def doublesOfEntries : List (Value × Value) → List Float
  | [] => []
  | (key, value) :: rest => doubles key ++ (doubles value ++ doublesOfEntries rest)
end

mutual
/-- A value is alike itself when all its doubles are the same as themselves. -/
theorem alike_refl (v : Value) (refl : ∀ x ∈ v.doubles, same x x = true) :
    alike same v v = true := by
  cases v with
  | double x => exact refl x List.mem_cons_self
  | variant inner => exact alike_refl inner refl
  | array element items => simp [alike, alikeList_refl items refl]
  | tuple items => exact alikeList_refl items refl
  | dict key value entries =>
      have each := entries_refl entries refl
      simp only [alike, beq_self_eq_true, Bool.true_and]
      exact (alikeWithin_iff entries entries).mpr fun e member => ⟨e, member, each e member⟩
  | _ => simp [alike]

theorem alikeList_refl (items : List Value) (refl : ∀ x ∈ doublesOfList items, same x x = true) :
    alikeList same items items = true := by
  match items with
  | [] => rfl
  | item :: rest =>
      obtain ⟨here, others⟩ := List.forall_mem_append.mp refl
      simp [alikeList, alike_refl item here, alikeList_refl rest others]

theorem entries_refl (entries : List (Value × Value))
    (refl : ∀ x ∈ doublesOfEntries entries, same x x = true) :
    ∀ e ∈ entries, alike same e.1 e.1 = true ∧ alike same e.2 e.2 = true := by
  match entries with
  | [] => simp
  | (key, value) :: rest =>
      obtain ⟨ofKey, more⟩ := List.forall_mem_append.mp refl
      obtain ⟨ofValue, others⟩ := List.forall_mem_append.mp more
      have first := And.intro (alike_refl key ofKey) (alike_refl value ofValue)
      exact List.forall_mem_cons.mpr ⟨first, entries_refl rest others⟩
end

mutual
theorem alike_doubles (a b : Value) (equal : alike same a b = true) :
    ∀ x ∈ a.doubles, ∃ y, same x y = true := by
  cases a with
  | double x =>
      cases b <;> try cases equal
      exact List.forall_mem_singleton.mpr ⟨_, equal⟩
  | variant a =>
      cases b <;> try cases equal
      exact alike_doubles a _ equal
  | array e as =>
      cases b <;> try cases equal
      simp only [alike, Bool.and_eq_true] at equal
      exact alikeList_doubles as _ equal.2
  | tuple as =>
      cases b <;> try cases equal
      exact alikeList_doubles as _ equal
  | dict k v es =>
      cases b <;> try cases equal
      simp only [alike, Bool.and_eq_true] at equal
      exact alikeWithin_doubles es _ equal.2
  | _ => exact fun x member => absurd member List.not_mem_nil

theorem alikeList_doubles (as bs : List Value) (equal : alikeList same as bs = true) :
    ∀ x ∈ doublesOfList as, ∃ y, same x y = true := by
  match as, bs with
  | [], _ => exact fun x member => absurd member List.not_mem_nil
  | _ :: _, [] => cases equal
  | a :: as, b :: bs =>
      simp only [alikeList, Bool.and_eq_true] at equal
      exact List.forall_mem_append.mpr
        ⟨alike_doubles a b equal.1, alikeList_doubles as bs equal.2⟩

theorem alikeWithin_doubles (es fs : List (Value × Value))
    (inside : alikeWithin same es fs = true) : ∀ x ∈ doublesOfEntries es, ∃ y, same x y = true := by
  match es with
  | [] => exact fun x member => absurd member List.not_mem_nil
  | (key, value) :: rest =>
      simp only [alikeWithin, Bool.and_eq_true, List.any_eq_true] at inside
      obtain ⟨⟨f, -, keys, values⟩, others⟩ := inside
      have inValue := List.forall_mem_append.mpr
        ⟨alike_doubles value f.2 values, alikeWithin_doubles rest fs others⟩
      exact List.forall_mem_append.mpr ⟨alike_doubles key f.1 keys, inValue⟩
end

mutual
theorem alike_trans (trans : ∀ x y z, same x y = true → then' y z = true → both x z = true)
    (a b c : Value) (first : alike same a b = true) (second : alike then' b c = true) :
    alike both a c = true := by
  cases a with
  | double x =>
      cases b <;> try cases first
      cases c <;> try cases second
      exact trans _ _ _ first second
  | variant a =>
      cases b <;> try cases first
      cases c <;> try cases second
      exact alike_trans trans a _ _ first second
  | array e as =>
      cases b <;> try cases first
      cases c <;> try cases second
      simp only [alike, Bool.and_eq_true, beq_iff_eq] at first second ⊢
      exact ⟨first.1.trans second.1, alikeList_trans trans as _ _ first.2 second.2⟩
  | tuple as =>
      cases b <;> try cases first
      cases c <;> try cases second
      exact alikeList_trans trans as _ _ first second
  | dict k v es =>
      cases b <;> try cases first
      cases c <;> try cases second
      simp only [alike, Bool.and_eq_true, beq_iff_eq] at first second ⊢
      obtain ⟨⟨⟨keys, values⟩, counts⟩, inside⟩ := first
      obtain ⟨⟨⟨keys', values'⟩, counts'⟩, inside'⟩ := second
      exact ⟨⟨⟨keys.trans keys', values.trans values'⟩, counts.trans counts'⟩,
        alikeWithin_trans trans es _ _ inside inside'⟩
  | _ =>
      cases b <;> try cases first
      cases c <;> try cases second
      simp only [alike, Bool.and_eq_true, beq_iff_eq] at first second ⊢
      simp_all

theorem alikeList_trans
    (trans : ∀ x y z, same x y = true → then' y z = true → both x z = true)
    (as bs cs : List Value) (first : alikeList same as bs = true)
    (second : alikeList then' bs cs = true) : alikeList both as cs = true := by
  match as, bs, cs with
  | [], [], [] => rfl
  | a :: as, b :: bs, c :: cs =>
      simp only [alikeList, Bool.and_eq_true] at first second ⊢
      exact ⟨alike_trans trans a b c first.1 second.1,
        alikeList_trans trans as bs cs first.2 second.2⟩
  | [], _ :: _, _ => cases first
  | _ :: _, [], _ => cases first
  | [], [], _ :: _ => cases second
  | _ :: _, _ :: _, [] => cases second

theorem alikeWithin_trans
    (trans : ∀ x y z, same x y = true → then' y z = true → both x z = true)
    (es fs gs : List (Value × Value)) (first : alikeWithin same es fs = true)
    (second : alikeWithin then' fs gs = true) : alikeWithin both es gs = true := by
  match es with
  | [] => rfl
  | (key, value) :: rest =>
      simp only [alikeWithin, Bool.and_eq_true, List.any_eq_true] at first ⊢
      obtain ⟨⟨f, member, keys, values⟩, others⟩ := first
      -- What the entry meets among the middle ones is met again among the last.
      obtain ⟨g, found, keys', values'⟩ := (alikeWithin_iff fs gs).mp second f member
      exact ⟨⟨g, found, alike_trans trans key _ _ keys keys',
        alike_trans trans value _ _ values values'⟩,
        alikeWithin_trans trans rest fs gs others second⟩
end

theorem sameDouble_beq (x y z : Float) (first : sameDouble x y = true)
    (second : (y == z) = true) : sameDouble x z = true := by
  simp only [sameDouble, Bool.or_eq_true, Bool.and_eq_true] at first ⊢
  rcases first with equal | ⟨-, yNaN⟩
  · exact .inl (Operator.beq_trans x y z equal second)
  · exact absurd yNaN (Bool.eq_false_iff.mp (Operator.beq_isNaN y z second).1)

theorem sameDouble_refl (x : Float) : sameDouble x x = true := by
  cases number : x.isNaN with
  | false => rw [sameDouble, Operator.beq_self x number, Bool.true_or]
  | true => rw [sameDouble, number, Bool.and_self, Bool.or_true]

theorem agrees_refl (v : Value) : v.agrees v = true := alike_refl v fun x _ => sameDouble_refl x

theorem agrees_beq (a b c : Value) (first : a.agrees b = true) (second : (b == c) = true) :
    a.agrees c = true := by
  change beq b c = true at second
  rw [beq_eq_alike] at second
  exact alike_trans sameDouble_beq a b c first second

end SimBus.Value
