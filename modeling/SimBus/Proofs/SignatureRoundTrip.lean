import SimBus.Ty.Signature
/-!
Signatures read back. A type is read off the front of its own letters, whatever
stands behind them, so that a signature gives back the type it was written for.
The one condition is that dictionaries have basic keys, since the reader takes
no others.
-/

namespace SimBus.Ty

mutual
/-- Dictionaries in the type have basic keys, all the way down. -/
def KeysBasic : Ty → Prop
  | bool | int _ | double | string | objectPath | variant => True
  | array element => KeysBasic element
  | tuple members => AllKeysBasic members
  | dict key value => key.isBasic = true ∧ KeysBasic value

def AllKeysBasic : List Ty → Prop
  | [] => True
  | ty :: rest => KeysBasic ty ∧ AllKeysBasic rest
end

theorem isBasic_keysBasic (ty : Ty) (basic : ty.isBasic = true) : ty.KeysBasic := by
  cases ty <;> simp_all [isBasic, KeysBasic]

theorem letters_length_pos (ty : Ty) : 0 < ty.letters.length := by
  cases ty <;> simp [letters]

theorem letters_head (ty : Ty) : ∃ c rest, ty.letters = c :: rest ∧ c ≠ ')' ∧ c ≠ '{' := by
  cases ty with
  | int kind => cases kind <;> exact ⟨_, _, rfl, by decide, by decide⟩
  | _ => exact ⟨_, _, rfl, by decide, by decide⟩

theorem read_int (fuel : Nat) (kind : IntKind) (rest : List Char) :
    read (fuel + 1) (kind.letter :: rest) = .ok (int kind, rest) := by
  cases kind <;> rfl

theorem read_array (fuel : Nat) (element : Ty) (rest : List Char)
    (inner : read fuel (element.letters ++ rest) = .ok (element, rest)) :
    read (fuel + 1) ((array element).letters ++ rest) = .ok (array element, rest) := by
  obtain ⟨c, more, begins, -, notEntry⟩ := letters_head element
  rw [begins, List.cons_append] at inner
  simp [letters, begins, read, notEntry, inner, bind, Except.bind, pure, Except.pure]

theorem read_dict (fuel : Nat) (key value : Ty) (rest : List Char) (basic : key.isBasic = true)
    (first : ∀ more, read fuel (key.letters ++ more) = .ok (key, more))
    (second : ∀ more, read fuel (value.letters ++ more) = .ok (value, more)) :
    read (fuel + 1) ((dict key value).letters ++ rest) = .ok (dict key value, rest) := by
  simp [letters, read, basic, first, second, bind, Except.bind, pure, Except.pure]

theorem readMembers_cons (fuel : Nat) (ty : Ty) (types : List Ty) (more rest : List Char)
    (first : read fuel (ty.letters ++ more) = .ok (ty, more))
    (others : readMembers fuel more = .ok (types, rest)) :
    readMembers (fuel + 1) (ty.letters ++ more) = .ok (ty :: types, rest) := by
  obtain ⟨c, behind, begins, notClosing, -⟩ := letters_head ty
  rw [begins, List.cons_append] at first ⊢
  simp [readMembers, notClosing, first, others, bind, Except.bind, pure, Except.pure]

mutual
/-- Reading takes two steps a letter at most, so the fuel covers every part. -/
theorem read_letters (ty : Ty) (fuel : Nat) (rest : List Char) (basic : ty.KeysBasic)
    (enough : 2 * ty.letters.length ≤ fuel + 1) :
    read fuel (ty.letters ++ rest) = .ok (ty, rest) := by
  have positive := letters_length_pos ty
  obtain ⟨fuel, rfl⟩ : ∃ less, fuel = less + 1 := ⟨fuel - 1, by omega⟩
  match ty with
  | bool | double | string | objectPath | variant => rfl
  | int kind => exact read_int fuel kind rest
  | array element =>
      have shorter : 2 * element.letters.length ≤ fuel + 1 := by
        simp only [letters, List.length_cons] at enough
        omega
      exact read_array fuel element rest (read_letters element fuel rest basic shorter)
  | tuple members =>
      have shorter : 2 * (lettersOfList members).length + 1 ≤ fuel := by
        simp only [letters, List.length_cons, List.length_append, List.length_nil] at enough
        omega
      have inner := readMembers_letters members fuel rest basic shorter
      simp [letters, read, inner, bind, Except.bind, pure, Except.pure]
  | dict key value =>
      have keyPositive := letters_length_pos key
      have shorter : 2 * key.letters.length ≤ fuel + 1 ∧ 2 * value.letters.length ≤ fuel + 1 := by
        simp only [letters, List.length_cons, List.length_append, List.length_nil] at enough
        omega
      exact read_dict fuel key value rest basic.1
        (fun more => read_letters key fuel more (isBasic_keysBasic key basic.1) shorter.1)
        (fun more => read_letters value fuel more basic.2 shorter.2)

theorem readMembers_letters (types : List Ty) (fuel : Nat) (rest : List Char)
    (basic : AllKeysBasic types) (enough : 2 * (lettersOfList types).length + 1 ≤ fuel) :
    readMembers fuel (lettersOfList types ++ ')' :: rest) = .ok (types, rest) := by
  obtain ⟨fuel, rfl⟩ : ∃ less, fuel = less + 1 := ⟨fuel - 1, by omega⟩
  match types with
  | [] => rfl
  | ty :: types =>
      have positive := letters_length_pos ty
      simp only [lettersOfList, List.length_append] at enough
      rw [lettersOfList, List.append_assoc]
      exact readMembers_cons fuel ty types _ rest
        (read_letters ty fuel _ basic.1 (by omega))
        (readMembers_letters types fuel rest basic.2 (by omega))
end

theorem parse_signature (ty : Ty) (basic : ty.KeysBasic) : parse ty.signature = .ok ty := by
  have whole := read_letters ty (2 * ty.letters.length) [] basic (by omega)
  rw [List.append_nil] at whole
  simp [parse, signature, readFront, whole]

end SimBus.Ty
