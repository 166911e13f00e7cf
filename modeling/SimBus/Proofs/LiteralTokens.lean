import SimBus.Proofs.LiteralExpressions
/-!
Numbers in a text: the tokens that they are read as, and the marks in front of a number,
which do not depend on it.
-/

namespace SimBus

theorem Position.past_line (p : Position) (text : List Char) (oneLine : '\n' ∉ text) :
    p.past text = ⟨p.line, p.column + text.length⟩ := by
  induction text generalizing p with
  | nil => rfl
  | cons c text ih =>
      obtain ⟨notEnd, inside⟩ := List.ne_and_not_mem_of_not_mem_cons oneLine
      rw [past, List.foldl_cons, ← past, ih _ inside, after, if_neg (Ne.symm notEnd)]
      simp [Nat.add_assoc, Nat.add_comm 1]

namespace Surface

def Numeric (text : List Char) : Prop := ∃ c rest, text = c :: rest ∧ c.isDigit = true

theorem numeric_literal (literal : Literal) (behind : List Char) :
    Numeric (literal.text ++ behind) := by
  cases literal with
  | decimal digits some decimal =>
      obtain ⟨c, rest, rfl⟩ := List.exists_cons_of_ne_nil some
      exact ⟨c, rest ++ behind, rfl, decimal c List.mem_cons_self⟩
  | hexadecimal capital digits some hexadecimal => exact ⟨'0', _, rfl, rfl⟩

theorem literal_oneLine (literal : Literal) : '\n' ∉ literal.text := by
  intro inside
  cases literal with
  | decimal digits some decimal => exact absurd (decimal _ inside) (by decide)
  | hexadecimal capital digits some hexadecimal =>
      have inside : '\n' ∈ digits := by cases capital <;> simpa [Literal.text] using inside
      exact absurd (hexadecimal _ inside) (by decide)

section Digit

variable (c : Char) (rest : List Char) (p : Position) (digit : c.isDigit = true)

include digit

theorem readToken_number (token : Token) (size : Nat)
    (read : readNumber (c :: rest) = .ok (token, size)) :
    readToken ⟨c :: rest, p⟩ = .ok ⟨token, p, Cursor.advance size ⟨c :: rest, p⟩⟩ := by
  simp only [readToken, isDigit_not_letter c digit, digit, Bool.false_eq_true, ↓reduceIte, read]

theorem readToken_noNumber (fault : String × String)
    (failed : readNumber (c :: rest) = .error fault) :
    readToken ⟨c :: rest, p⟩ = .error ⟨p, fault.1, fault.2⟩ := by
  simp only [readToken, isDigit_not_letter c digit, digit, Bool.false_eq_true, ↓reduceIte, failed]

end Digit

theorem readToken_literal (literal : Literal) (behind : List Char) (p : Position)
    (ends : Ends behind) : readToken ⟨literal.text ++ behind, p⟩ =
      Reader.numberAt p ⟨behind, ⟨p.line, p.column + literal.text.length⟩⟩ (literal.read p) := by
  have number := readNumber_literal literal behind ends
  have after := Cursor.advance_past literal.text behind p
  rw [Position.past_line p _ (literal_oneLine literal)] at after
  obtain ⟨c, rest, text, digit⟩ := numeric_literal literal behind
  rw [text] at number after ⊢
  rw [Literal.read]
  split at number
  · next small =>
      rw [readToken_number c rest p digit _ _ number, if_pos small, after]
      rfl
  · next great =>
      rw [readToken_noNumber c rest p digit _ number, if_neg great]
      rfl

/-! Marks in front of a number. -/

theorem readToken_mark (c : Char) (rest : List Char) (p : Position) (mark : Punct) (size : Nat)
    (noLetter : isLetter c = false) (noDigit : c.isDigit = false) (noQuote : c ≠ '"')
    (found : punct? (c :: rest) = some (mark, size)) :
    readToken ⟨c :: rest, p⟩ = .ok ⟨.punct mark, p, Cursor.advance size ⟨c :: rest, p⟩⟩ := by
  simp only [readToken, noLetter, noDigit, noQuote, Bool.false_eq_true, ↓reduceIte, found]

theorem readToken_mark_cases (text : List Char) (p q : Position) (mark : Punct) (after : Cursor)
    (read : readToken ⟨text, p⟩ = .ok ⟨.punct mark, q, after⟩) :
    ∃ c rest size, text = c :: rest ∧ isLetter c = false ∧ c.isDigit = false ∧ c ≠ '"' ∧
      punct? text = some (mark, size) ∧ q = p ∧ after = Cursor.advance size ⟨text, p⟩ := by
  cases text with
  | nil => cases read
  | cons c rest =>
      simp only [readToken] at read
      split at read
      · cases read
      · next noLetter =>
          split at read
          · split at read
            · next token size number =>
                obtain ⟨rfl, -⟩ := Lexeme.mk.inj (Except.ok.inj read)
                exact absurd number (readNumber_noMark _ mark size)
            · cases read
          · next noDigit =>
              split at read
              · obtain ⟨_, -, same⟩ := (except_bind_ok_iff _ _ _).mp read
                cases same
              · next noQuote =>
                  split at read
                  · next size found =>
                      obtain ⟨same, rfl, rfl⟩ := Lexeme.mk.inj (Except.ok.inj read)
                      obtain rfl := Token.punct.inj same
                      exact ⟨c, rest, size, rfl, by simpa using noLetter, by simpa using noDigit,
                        noQuote, found, rfl, rfl⟩
                  · cases read

theorem punct?_numeric (front text text' : List Char) (some : front ≠ []) (numeric : Numeric text)
    (numeric' : Numeric text') : punct? (front ++ text) = punct? (front ++ text') := by
  match front, some with
  | [c], _ =>
      have alone (text : List Char) (numeric : Numeric text) : punct? (c :: text) = punct? [c] := by
        obtain ⟨d, rest, rfl, digit⟩ := numeric
        refine punct?_other c _ fun e first pair => ?_
        obtain rfl := Option.some.inj first
        simp only [punctPairs, List.mem_cons, Prod.mk.injEq, List.not_mem_nil, or_false] at pair
        rcases pair with ⟨-, rfl⟩ | ⟨-, rfl⟩ | ⟨-, rfl⟩ | ⟨-, rfl⟩ | ⟨-, rfl⟩ | ⟨-, rfl⟩
        all_goals cases digit
      exact (alone text numeric).trans (alone text' numeric').symm
  | c :: d :: front, _ => exact punct?_two c d _ _

theorem mark_local (front text text' : List Char) (numeric : Numeric text)
    (numeric' : Numeric text') (p q : Position) (mark : Punct) (after : Cursor)
    (read : readToken ⟨front ++ text, p⟩ = .ok ⟨.punct mark, q, after⟩)
    (within : text.length ≤ after.rest.length) :
    ∃ left, after.rest = left ++ text ∧
      readToken ⟨front ++ text', p⟩ = .ok ⟨.punct mark, q, ⟨left ++ text', after.position⟩⟩ := by
  obtain ⟨c, rest, size, whole, noLetter, noDigit, noQuote, found, rfl, rfl⟩ :=
    readToken_mark_cases _ _ _ _ _ read
  cases front with
  | nil =>
      obtain ⟨d, more, rfl, digit⟩ := numeric
      obtain ⟨rfl, -⟩ := List.cons.inj whole
      rw [noDigit] at digit
      cases digit
  | cons d front =>
      obtain ⟨rfl, rfl⟩ := List.cons.inj whole
      have short : size ≤ (d :: front).length := by
        rw [advance_rest, List.length_drop] at within
        have positive : text ≠ [] := by
          obtain ⟨e, more, rfl, -⟩ := numeric
          simp
        have positive := List.length_pos_iff.mpr positive
        simp only [List.length_append] at within
        omega
      have cut (text : List Char) : Cursor.advance size ⟨(d :: front) ++ text, q⟩ =
          ⟨(d :: front).drop size ++ text, q.past ((d :: front).take size)⟩ := by
        rw [Cursor.advance_eq, List.drop_append_of_le_length short,
          List.take_append_of_le_length short]
      rw [punct?_numeric _ text text' (by simp) numeric numeric'] at found
      refine ⟨(d :: front).drop size, by rw [cut], ?_⟩
      rw [cut, ← cut text']
      exact readToken_mark d _ q mark size noLetter noDigit noQuote found

theorem readToken_integer (text : List Char) (p q : Position) (n : Nat) (after : Cursor)
    (read : readToken ⟨text, p⟩ = .ok ⟨.integer n, q, after⟩) : Numeric text := by
  cases text with
  | nil => cases read
  | cons c rest =>
      refine ⟨c, rest, rfl, ?_⟩
      simp only [readToken] at read
      split at read
      · cases read
      · split at read
        · assumption
        · split at read
          · obtain ⟨_, -, same⟩ := (except_bind_ok_iff _ _ _).mp read
            cases same
          · split at read <;> cases read

theorem firm_digit (c : Char) (digit : c.isDigit = true) : Firm c := by
  refine ⟨Bool.eq_false_iff.mpr fun blank => ?_, ?_, ?_⟩
  · rcases isBlank_cases c blank with rfl | rfl | rfl | rfl | rfl <;> cases digit
  · rintro rfl
    cases digit
  · rintro rfl
    cases digit

/-- A number behind marks can be replaced by any other: the marks stay the same, and
whatever that number is read as stands behind them. -/
theorem behind_local (c after : Cursor) (place : Position) (n : Nat)
    (marks : List (Punct × Position)) (stands : c.Behind (.ok ⟨.integer n, place, after⟩) marks) :
    ∃ lead text, c.rest = lead ++ text ∧ place = c.position.past lead ∧
      readToken ⟨text, place⟩ = .ok ⟨.integer n, place, after⟩ ∧
      ∀ text', Numeric text' →
        Cursor.Behind (readToken ⟨text', place⟩) marks ⟨lead ++ text', c.position⟩ := by
  have skips {lead text left : List Char} {p q : Position} (numeric : Numeric text)
      (skipped : Cursor.skip ⟨lead ++ text, p⟩ = .ok ⟨left ++ text, q⟩) (text' : List Char)
      (numeric' : Numeric text') : Cursor.skip ⟨lead ++ text', p⟩ = .ok ⟨left ++ text', q⟩ := by
    obtain ⟨d, rest, rfl, digit⟩ := numeric
    obtain ⟨d', rest', rfl, digit'⟩ := numeric'
    exact skip_local .blanks lead left rest rest' d d' p q (firm_digit d digit)
      (firm_digit d' digit') skipped
  induction marks generalizing c with
  | nil =>
      obtain ⟨⟨text, q⟩, skipped, read⟩ := (Cursor.next_ok_iff c _).mp stands
      obtain rfl := (readToken_moves _ _ read).1
      have numeric := readToken_integer text _ _ n after read
      obtain ⟨lead, rest, past⟩ := Cursor.moves_skip c _ skipped
      refine ⟨lead, text, rest, past, read, fun text' numeric' => ?_⟩
      have skipped : Cursor.skip ⟨lead ++ text, c.position⟩ = .ok ⟨[] ++ text, place⟩ :=
        rest ▸ skipped
      rw [Cursor.Behind, Cursor.next, skips numeric skipped text' numeric']
      rfl
  | cons mark marks ih =>
      obtain ⟨found, stop⟩ := mark
      obtain ⟨a, next, behind⟩ := stands
      obtain ⟨lead, text, rest, past, read, others⟩ := ih a behind
      have numeric := readToken_integer text _ _ n after read
      obtain ⟨⟨_, p⟩, skipped, first⟩ := (Cursor.next_ok_iff c _).mp next
      obtain ⟨taken, rfl, passed⟩ := (readToken_moves _ _ first).2
      obtain ⟨blanks, whole, begun⟩ := Cursor.moves_skip c _ skipped
      simp only [rest, ← List.append_assoc] at first skipped whole passed begun
      refine ⟨blanks ++ taken ++ lead, text, whole, ?_, read, fun text' numeric' => ?_⟩
      · rw [Position.past_append, Position.past_append, ← begun, ← passed, past]
      · obtain ⟨left, same, first'⟩ :=
          mark_local _ text text' numeric numeric' p stop found a first (by simp [rest])
        obtain rfl := List.append_cancel_right (rest.symm.trans same)
        have skipped : Cursor.skip ⟨(blanks ++ taken ++ lead) ++ text, c.position⟩ =
            .ok ⟨(taken ++ lead) ++ text, p⟩ := whole ▸ skipped
        exact ⟨_, (Cursor.next_ok_iff _ _).mpr ⟨_, skips numeric skipped text' numeric', first'⟩,
          others text' numeric'⟩

end Surface

end SimBus
