import SimBus.Proofs.CursorMoves
/-!
What a token does not depend on. A token that ends with an equality sign, or before it,
is the same whatever stands behind the sign, as long as that is not another one.
-/

namespace SimBus.Surface

open Cursor (Moves advance_eq)

theorem takeWhile_local (p : Char → Bool) (front behind : List Char) (stops : p '=' = false) :
    (front ++ '=' :: behind).takeWhile p = front.takeWhile p := by
  induction front with
  | nil => simp [stops]
  | cons c front ih => simp only [List.cons_append, List.takeWhile_cons, ih]

variable (front behind : List Char)

/-! Numbers end before the sign. -/

theorem fraction?_local : fraction? (front ++ '=' :: behind) = fraction? front := by
  cases front with
  | nil => rfl
  | cons c front => rw [List.cons_append, fraction?_cons, fraction?_cons, takeWhile_local _ _ _ rfl]

theorem splitSign_local : splitSign (front ++ '=' :: behind) =
    ((splitSign front).1, (splitSign front).2 ++ '=' :: behind) := by
  cases front with
  | nil => rfl
  | cons c front =>
      by_cases plus : c = '+'
      · subst plus
        rfl
      by_cases minus : c = '-'
      · subst minus
        rfl
      simp [splitSign, plus, minus]

theorem power?_local : power? (front ++ '=' :: behind) = power? front := by
  cases front with
  | nil => rfl
  | cons c front =>
      rw [List.cons_append, power?_cons, power?_cons, splitSign_local, takeWhile_local _ _ _ rfl]

theorem readDecimal_local : readDecimal (front ++ '=' :: behind) = readDecimal front := by
  have whole := takeWhile_local Char.isDigit front behind rfl
  rw [readDecimal_eq, readDecimal_eq, whole,
    List.drop_append_of_le_length (List.takeWhile_prefix _).length_le, fraction?_local,
    List.drop_append_of_le_length (fraction?_size _), power?_local]

theorem readHexadecimal_local :
    readHexadecimal (front ++ '=' :: behind) = readHexadecimal front := by
  rw [readHexadecimal, readHexadecimal, takeWhile_local _ _ _ rfl]

theorem readNumber_local : readNumber (front ++ '=' :: behind) = readNumber front := by
  match front with
  | [] => rfl
  | [c] =>
      have same := readDecimal_local [c] behind
      simp only [List.singleton_append] at same ⊢
      rw [readNumber_cons, if_neg (by simp), same, readNumber_single]
  | c :: d :: front =>
      have same := readDecimal_local (c :: d :: front) behind
      have same' := readHexadecimal_local front behind
      simp only [List.cons_append] at same ⊢
      rw [readNumber_cons, readNumber_cons, same, same']

/-! Strings end with a quote. -/

theorem readString_plain (start : Position) (c : Char) (rest : List Char) (p : Position)
    (noQuote : c ≠ '"') (noEscape : c ≠ '\\') : readString start (c :: rest) p = (do
      let (text, cursor) ← readString start rest (p.after c)
      pure (c :: text, cursor)) := by
  rw [readString]
  · rw [if_neg noEscape]
  · exact noQuote
  · rintro d more rfl
    exact absurd rfl noEscape

theorem readString_shorter (start : Position) (cs : List Char) (p : Position)
    (read : List Char × Cursor) (made : readString start cs p = .ok read) :
    read.2.rest.length < cs.length := by
  fun_induction readString start cs p generalizing read with
  | case1 | case3 | case5 => cases made
  | case2 rest p =>
      obtain rfl := Except.ok.inj made
      exact Nat.lt_succ_self _
  | case4 c rest p meant _ ih =>
      obtain ⟨⟨text, d⟩, more, same⟩ := (except_bind_ok_iff _ _ _).mp made
      obtain rfl := Except.ok.inj same
      exact (ih _ more).trans (Nat.lt_succ_of_lt (Nat.lt_succ_self _))
  | case6 c rest p _ _ _ ih =>
      obtain ⟨⟨text, d⟩, more, same⟩ := (except_bind_ok_iff _ _ _).mp made
      obtain rfl := Except.ok.inj same
      exact (ih _ more).trans (Nat.lt_succ_self _)

theorem readString_local (behind' : List Char) (start p : Position) (read : List Char × Cursor)
    (made : readString start (front ++ '=' :: behind) p = .ok read)
    (within : behind.length ≤ read.2.rest.length) :
    ∃ left, read.2.rest = left ++ '=' :: behind ∧
      readString start (front ++ '=' :: behind') p =
        .ok (read.1, ⟨left ++ '=' :: behind', read.2.position⟩) := by
  generalize text : front ++ '=' :: behind = cs at made
  fun_induction readString start cs p generalizing front read with
  | case1 | case3 | case5 => cases made
  | case2 rest p =>
      obtain rfl := Except.ok.inj made
      obtain ⟨front, rfl, rfl⟩ := front_cons (by decide) text
      exact ⟨front, rfl, rfl⟩
  | case4 c rest p meant escapes ih =>
      obtain ⟨⟨inner, d⟩, more, same⟩ := (except_bind_ok_iff _ _ _).mp made
      obtain rfl := Except.ok.inj same
      obtain ⟨front, rfl, second⟩ := front_cons (by decide) text
      have other : c ≠ '=' := by
        rintro rfl
        cases escapes
      obtain ⟨front, rfl, rfl⟩ := front_cons other second.symm
      obtain ⟨left, rest, again⟩ := ih front (inner, d) within rfl more
      refine ⟨left, rest, ?_⟩
      simp only [List.cons_append, readString, escapes, again]
      rfl
  | case6 c rest p noQuote _ noEscape ih =>
      obtain ⟨⟨inner, d⟩, more, same⟩ := (except_bind_ok_iff _ _ _).mp made
      obtain rfl := Except.ok.inj same
      cases front with
      | nil =>
          obtain ⟨rfl, rfl⟩ := List.cons.inj text
          exact absurd (readString_shorter _ _ _ _ more) (Nat.not_lt.mpr within)
      | cons e front =>
          obtain ⟨rfl, rfl⟩ := List.cons.inj text
          obtain ⟨left, rest, again⟩ := ih front (inner, d) within rfl more
          refine ⟨left, rest, ?_⟩
          rw [List.cons_append, readString_plain _ _ _ _ noQuote noEscape, again]
          rfl

/-! Tokens. -/

def punctPairs : List (Char × Char) :=
  [('&', '&'), ('|', '|'), ('=', '='), ('!', '='), ('<', '='), ('>', '=')]

theorem punct?_pair (c d : Char) (pair : (c, d) ∈ punctPairs) :
    ∃ mark, ∀ rest, punct? (c :: d :: rest) = some (mark, 2) := by
  simp only [punctPairs, List.mem_cons, Prod.mk.injEq, List.not_mem_nil, or_false] at pair
  rcases pair with ⟨rfl, rfl⟩ | ⟨rfl, rfl⟩ | ⟨rfl, rfl⟩ | ⟨rfl, rfl⟩ | ⟨rfl, rfl⟩ | ⟨rfl, rfl⟩
  all_goals exact ⟨_, fun _ => rfl⟩

theorem punct?_other (c : Char) (rest : List Char)
    (other : ∀ d, rest.head? = some d → (c, d) ∉ punctPairs) : punct? (c :: rest) = punct? [c] := by
  unfold punct?
  split
  case h_7 c' tail _ _ _ _ _ _ same =>
    obtain ⟨rfl, rfl⟩ := List.cons.inj same
    simp only
  case h_8 same => cases same
  all_goals
    next tail same =>
      obtain ⟨rfl, rfl⟩ := List.cons.inj same
      exact absurd (by decide) (other _ rfl)

theorem punct?_single (c : Char) (mark : Punct) (size : Nat)
    (found : punct? [c] = some (mark, size)) : size = 1 := by
  unfold punct? at found
  simp only at found
  split at found
  all_goals cases found
  all_goals rfl

theorem punct?_size (text : List Char) (mark : Punct) (size : Nat)
    (found : punct? text = some (mark, size)) : size ≤ 2 := by
  have alone (c : Char) (rest : List Char) (same : punct? (c :: rest) = punct? [c])
      (found : punct? (c :: rest) = some (mark, size)) : size ≤ 2 := by
    rw [punct?_single c mark size (same.symm.trans found)]
    decide
  match text, found with
  | [c], found => exact alone c [] rfl found
  | c :: d :: rest, found =>
      by_cases pair : (c, d) ∈ punctPairs
      · obtain ⟨other, all⟩ := punct?_pair c d pair
        obtain ⟨-, rfl⟩ := Prod.mk.inj (Option.some.inj ((all rest).symm.trans found))
        exact le_rfl
      · refine alone c (d :: rest) (punct?_other c (d :: rest) fun e same => ?_) found
        exact Option.some.inj same ▸ pair

theorem punct?_two (c d : Char) (rest rest' : List Char) :
    punct? (c :: d :: rest) = punct? (c :: d :: rest') := by
  by_cases pair : (c, d) ∈ punctPairs
  · obtain ⟨mark, all⟩ := punct?_pair c d pair
    rw [all, all]
  · rw [punct?_other c (d :: rest), punct?_other c (d :: rest')]
    all_goals exact fun e same => Option.some.inj same ▸ pair

def Single (behind : List Char) : Prop := ∀ d, behind.head? = some d → d ≠ '='

theorem punct?_local (behind' : List Char) (single : Single behind) (single' : Single behind') :
    punct? (front ++ '=' :: behind) = punct? (front ++ '=' :: behind') := by
  match front with
  | [] =>
      have alone (behind : List Char) (single : Single behind) :
          punct? ('=' :: behind) = punct? ['='] := by
        refine punct?_other '=' behind fun d first => ?_
        have other := single d first
        simp [punctPairs, other]
      exact (alone behind single).trans (alone behind' single').symm
  | [c] => exact punct?_two c '=' behind behind'
  | c :: d :: front => exact punct?_two c d _ _

theorem advance_cut (count : Nat) (p : Position) (short : count ≤ front.length + 1) :
    Cursor.advance count ⟨front ++ '=' :: behind, p⟩ =
      ⟨(front ++ ['=']).drop count ++ behind, p.past ((front ++ ['=']).take count)⟩ := by
  have text : front ++ '=' :: behind = (front ++ ['=']) ++ behind := by simp
  have short : count ≤ (front ++ ['=']).length := by simpa using short
  rw [text, advance_eq, List.drop_append_of_le_length short, List.take_append_of_le_length short]

/-- What is taken off the front of a text is the same whatever stands behind. -/
theorem lexeme_cut (behind' : List Char) (p : Position) (count : Nat)
    (short : count ≤ front.length + 1) :
    ∃ left, (Cursor.advance count ⟨front ++ '=' :: behind, p⟩).rest = left ++ behind ∧
      Cursor.advance count ⟨front ++ '=' :: behind', p⟩ =
        ⟨left ++ behind', (Cursor.advance count ⟨front ++ '=' :: behind, p⟩).position⟩ := by
  rw [advance_cut front behind count p short, advance_cut front behind' count p short]
  exact ⟨_, rfl, rfl⟩

/-- A token that ends with the sign, or before it, does not depend on what is behind. -/
theorem readToken_local (behind' : List Char) (single : Single behind) (single' : Single behind')
    (p : Position) (lexeme : Lexeme) (read : readToken ⟨front ++ '=' :: behind, p⟩ = .ok lexeme)
    (within : behind.length ≤ lexeme.after.rest.length) :
    ∃ left, lexeme.after.rest = left ++ behind ∧
      readToken ⟨front ++ '=' :: behind', p⟩ =
        .ok { lexeme with after := ⟨left ++ behind', lexeme.after.position⟩ } := by
  have marks := punct?_local front behind behind' single single'
  cases front with
  | nil =>
      have equality (behind : List Char) (single : Single behind) :
          readToken ⟨'=' :: behind, p⟩ = .ok ⟨.punct .eq, p, ⟨behind, p.after '='⟩⟩ := by
        have alone : punct? ('=' :: behind) = some (.eq, 1) := by
          refine (punct?_other '=' behind fun d first => ?_).trans rfl
          have other := single d first
          simp [punctPairs, other]
        simp only [readToken, alone]
        rfl
      obtain rfl := Except.ok.inj ((equality behind single).symm.trans read)
      exact ⟨[], rfl, equality behind' single'⟩
  | cons c front =>
      have whole (p : Char → Bool) (stops : p '=' = false) (behind : List Char) :=
        takeWhile_local p (c :: front) behind stops
      have number (behind : List Char) := readNumber_local (c :: front) behind
      have cut := lexeme_cut (c :: front) behind behind' p
      simp only [List.cons_append] at marks whole number cut read ⊢
      simp only [readToken, whole isNameChar rfl, number, ← marks] at read ⊢
      by_cases letter : isLetter c = true
      · rw [if_pos letter] at read ⊢
        obtain rfl := Except.ok.inj read
        obtain ⟨left, rest, same⟩ := cut ((c :: front).takeWhile isNameChar).length
          ((List.takeWhile_prefix _).length_le.trans (Nat.le_succ _))
        exact ⟨left, rest, by rw [same]⟩
      rw [if_neg letter] at read ⊢
      by_cases digit : c.isDigit = true
      · rw [if_pos digit] at read ⊢
        cases numbers : readNumber (c :: front) with
        | error fault => simp [numbers] at read
        | ok found =>
            obtain ⟨token, size⟩ := found
            simp only [numbers] at read ⊢
            obtain rfl := Except.ok.inj read
            have short := readNumber_length _ token size numbers
            obtain ⟨left, rest, same⟩ := cut size (short.trans (Nat.le_succ _))
            exact ⟨left, rest, by rw [same]⟩
      rw [if_neg digit] at read ⊢
      by_cases quote : c = '"'
      · rw [if_pos quote] at read ⊢
        obtain ⟨⟨text, after⟩, inside, same⟩ := (except_bind_ok_iff _ _ _).mp read
        obtain rfl := Except.ok.inj same
        obtain ⟨left, rest, again⟩ :=
          readString_local front behind behind' p (p.after c) (text, after) inside within
        refine ⟨left ++ ['='], by simpa using rest, ?_⟩
        rw [again]
        simp only [List.append_assoc, List.singleton_append]
        rfl
      rw [if_neg quote] at read ⊢
      cases mark : punct? (c :: (front ++ '=' :: behind)) with
      | none => simp [mark] at read
      | some found =>
          obtain ⟨found, size⟩ := found
          simp only [mark] at read ⊢
          obtain rfl := Except.ok.inj read
          have short := punct?_size _ found size mark
          obtain ⟨left, rest, same⟩ := cut size (short.trans (by simp))
          exact ⟨left, rest, by rw [same]⟩

end SimBus.Surface
