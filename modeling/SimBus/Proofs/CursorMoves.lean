import SimBus.Proofs.Resolved
import SimBus.Proofs.SymbolReading
/-!
How a cursor moves. Skipping and reading tokens move it over some characters of the
text, and its position counts them, so a position tells a place of the text.
-/

namespace SimBus

def Position.past (p : Position) (text : List Char) : Position := text.foldl Position.after p

namespace Position

def Before (p q : Position) : Prop := p.line < q.line ∨ p.line = q.line ∧ p.column < q.column

theorem past_append (p : Position) (first second : List Char) :
    p.past (first ++ second) = (p.past first).past second := List.foldl_append

theorem before_trans {p q r : Position} (first : p.Before q) (second : q.Before r) :
    p.Before r := by
  unfold Before at *
  omega

theorem before_after (p : Position) (c : Char) : p.Before (p.after c) := by
  unfold after Before
  split
  · exact .inl (Nat.lt_succ_self p.line)
  · exact .inr ⟨rfl, Nat.lt_succ_self p.column⟩

theorem before_past (p : Position) (text : List Char) (some : text ≠ []) :
    p.Before (p.past text) := by
  induction text generalizing p with
  | nil => exact absurd rfl some
  | cons c rest ih =>
      cases rest with
      | nil => exact before_after p c
      | cons d rest => exact before_trans (before_after p c) (ih (p.after c) (by simp))

theorem past_injective (p : Position) (first second behind behind' : List Char)
    (same : first ++ behind = second ++ behind') (samePlace : p.past first = p.past second) :
    first = second := by
  have apart (shorter longer : List Char) (place : p.past (shorter ++ longer) = p.past shorter) :
      longer = [] := by
    cases longer with
    | nil => rfl
    | cons c more =>
        have further := before_past (p.past shorter) (c :: more) (by simp)
        rw [← past_append, place] at further
        unfold Before at further
        omega
  rcases List.append_eq_append_iff.mp same with ⟨more, rfl, -⟩ | ⟨more, rfl, -⟩
  · rw [apart first more samePlace.symm, List.append_nil]
  · rw [apart second more samePlace, List.append_nil]

end Position

namespace Surface

namespace Cursor

/-- The cursor comes to stand behind some more of the text. -/
def Moves (c d : Cursor) : Prop :=
  ∃ text, c.rest = text ++ d.rest ∧ d.position = c.position.past text

theorem moves_refl (c : Cursor) : c.Moves c := ⟨[], rfl, rfl⟩

theorem moves_trans {c d e : Cursor} (first : c.Moves d) (second : d.Moves e) : c.Moves e := by
  obtain ⟨text, rest, place⟩ := first
  obtain ⟨more, rest', place'⟩ := second
  exact ⟨text ++ more, by rw [rest, rest', List.append_assoc],
    by rw [place', place, Position.past_append]⟩

theorem moves_over (text behind : List Char) (p : Position) :
    Moves ⟨text ++ behind, p⟩ ⟨behind, p.past text⟩ := ⟨text, rfl, rfl⟩

theorem moves_length {c d : Cursor} (moves : c.Moves d) : d.rest.length ≤ c.rest.length := by
  obtain ⟨text, rest, -⟩ := moves
  simp [rest]

theorem advance_eq (count : Nat) (c : Cursor) :
    c.advance count = ⟨c.rest.drop count, c.position.past (c.rest.take count)⟩ := by
  obtain ⟨cs, p⟩ := c
  induction count generalizing cs p with
  | zero => rfl
  | succ count ih =>
      cases cs with
      | nil => rfl
      | cons c rest => exact ih rest (p.after c)

theorem moves_advance (count : Nat) (c : Cursor) : c.Moves (c.advance count) := by
  rw [advance_eq]
  exact ⟨c.rest.take count, (List.take_append_drop count c.rest).symm, rfl⟩

theorem advance_past (text behind : List Char) (p : Position) :
    advance text.length ⟨text ++ behind, p⟩ = ⟨behind, p.past text⟩ := by
  simp [advance_eq]

end Cursor

open Cursor (Moves moves_refl moves_trans moves_over moves_length moves_advance)

/-! Blanks and comments. -/

theorem skip_moves (mode : Trivia) (cs : List Char) (p : Position) (d : Cursor)
    (skips : skipTrivia mode cs p = .ok d) : Moves ⟨cs, p⟩ d := by
  fun_induction skipTrivia mode cs p with
  | case1 => cases skips
  | case2 _ rest p ih => exact moves_trans (moves_over ['*', '/'] rest p) (ih skips)
  | case3 _ c rest p _ ih => exact moves_trans (moves_over [c] rest p) (ih skips)
  | case4 p | case10 p =>
      obtain rfl := Except.ok.inj skips
      exact moves_refl _
  | case5 c rest p ih => exact moves_trans (moves_over [c] rest p) (ih skips)
  | case6 rest p ih => exact moves_trans (moves_over ['/', '/'] rest p) (ih skips)
  | case7 rest p ih => exact moves_trans (moves_over ['/', '*'] rest p) (ih skips)
  | case8 c rest p _ _ _ ih => exact moves_trans (moves_over [c] rest p) (ih skips)
  | case9 c rest p =>
      obtain rfl := Except.ok.inj skips
      exact moves_refl _

theorem skip_again (mode : Trivia) (cs : List Char) (p : Position) (d : Cursor)
    (skips : skipTrivia mode cs p = .ok d) : d.skip = .ok d := by
  fun_induction skipTrivia mode cs p with
  | case1 => cases skips
  | case2 _ _ _ ih | case3 _ _ _ _ _ ih | case5 _ _ _ ih | case6 _ _ ih | case7 _ _ ih
  | case8 _ _ _ _ _ _ ih => exact ih skips
  | case4 p | case10 p =>
      obtain rfl := Except.ok.inj skips
      rfl
  | case9 c rest p noLine noBlock seen =>
      obtain rfl := Except.ok.inj skips
      rw [Cursor.skip, skipTrivia, if_neg seen] <;> assumption

/-- Characters at which skipping ends, and which are no part of a comment mark. -/
structure Firm (c : Char) : Prop where
  seen : isBlank c = false
  noSlash : c ≠ '/'
  noStar : c ≠ '*'

theorem skip_short (mode : Trivia) (cs : List Char) (p : Position) (d : Cursor)
    (skips : skipTrivia mode cs p = .ok d) : d.rest.length ≤ cs.length :=
  moves_length (skip_moves mode cs p d skips)

theorem skip_at_firm (c : Char) (rest : List Char) (p : Position) (firm : Firm c) :
    skipTrivia .blanks (c :: rest) p = .ok ⟨c :: rest, p⟩ :=
  skip_none c rest p firm.seen (opensComment_other c rest firm.noSlash)

theorem front_cons {front behind rest : List Char} {c d : Char} (other : d ≠ c)
    (text : front ++ c :: behind = d :: rest) :
    ∃ more, front = d :: more ∧ rest = more ++ c :: behind := by
  cases front with
  | nil => exact absurd (List.cons.inj text).1 (Ne.symm other)
  | cons e more =>
      obtain ⟨rfl, rfl⟩ := List.cons.inj text
      exact ⟨more, rfl, rfl⟩

theorem opensComment_local (d : Char) (front behind behind' : List Char) (c c' : Char)
    (firm' : Firm c') (opens : opensComment (d :: (front ++ c' :: behind')) = true) :
    opensComment (d :: (front ++ c :: behind)) = true := by
  cases front with
  | nil =>
      simp only [opensComment, List.nil_append] at opens
      split at opens
      · next same => exact absurd (List.cons.inj (List.cons.inj same).2).1 firm'.noSlash
      · next same => exact absurd (List.cons.inj (List.cons.inj same).2).1 firm'.noStar
      · cases opens
  | cons e front =>
      simp only [opensComment, List.cons_append] at opens
      split at opens
      · next same =>
          obtain ⟨rfl, second⟩ := List.cons.inj same
          obtain ⟨rfl, -⟩ := List.cons.inj second
          rfl
      · next same =>
          obtain ⟨rfl, second⟩ := List.cons.inj same
          obtain ⟨rfl, -⟩ := List.cons.inj second
          rfl
      · cases opens

/-- Skipping that ends at a firm character, or before it, does not depend on it or on
what is behind it. -/
theorem skip_local (mode : Trivia) (front left behind behind' : List Char) (c c' : Char)
    (p q : Position) (firm : Firm c) (firm' : Firm c')
    (skips : skipTrivia mode (front ++ c :: behind) p = .ok ⟨left ++ c :: behind, q⟩) :
    skipTrivia mode (front ++ c' :: behind') p = .ok ⟨left ++ c' :: behind', q⟩ := by
  -- Whatever is skipped ends before `c`.
  have never (mode : Trivia) (p : Position)
      (skips : skipTrivia mode behind p = .ok ⟨left ++ c :: behind, q⟩) : False := by
    have shorter := skip_short mode behind p _ skips
    simp only [List.length_append, List.length_cons] at shorter
    omega
  generalize text : front ++ c :: behind = cs at skips
  fun_induction skipTrivia mode cs p generalizing front with
  | case1 => cases skips
  | case4 => simp at text
  | case10 => simp at text
  | case2 start rest p ih =>
      obtain ⟨front, rfl, second⟩ := front_cons firm.noStar.symm text
      obtain ⟨front, rfl, rfl⟩ := front_cons firm.noSlash.symm second.symm
      exact ih front rfl skips
  | case3 start d rest p noEnd ih =>
      cases front with
      | nil =>
          obtain ⟨rfl, rfl⟩ := List.cons.inj text
          exact (never _ _ skips).elim
      | cons d front =>
          obtain ⟨rfl, rfl⟩ := List.cons.inj text
          rw [List.cons_append, skipTrivia]
          · exact ih front rfl skips
          · rintro more rfl slash
            obtain ⟨front, rfl, -⟩ := front_cons firm'.noSlash.symm slash
            exact noEnd _ rfl rfl
  | case5 d rest p ih =>
      cases front with
      | nil =>
          obtain ⟨rfl, rfl⟩ := List.cons.inj text
          exact (never _ _ skips).elim
      | cons d front =>
          obtain ⟨rfl, rfl⟩ := List.cons.inj text
          exact ih front rfl skips
  | case6 rest p ih =>
      obtain ⟨front, rfl, second⟩ := front_cons firm.noSlash.symm text
      obtain ⟨front, rfl, rfl⟩ := front_cons firm.noSlash.symm second.symm
      exact ih front rfl skips
  | case7 rest p ih =>
      obtain ⟨front, rfl, second⟩ := front_cons firm.noSlash.symm text
      obtain ⟨front, rfl, rfl⟩ := front_cons firm.noStar.symm second.symm
      exact ih front rfl skips
  | case8 d rest p _ _ blank ih =>
      have notFirm : d ≠ c := fun same => by simp [same, firm.seen] at blank
      obtain ⟨front, rfl, rfl⟩ := front_cons notFirm text
      rw [List.cons_append, skip_blank _ _ _ blank]
      exact ih front rfl skips
  | case9 d rest p noLine noBlock seen =>
      obtain ⟨same, rfl⟩ := Cursor.mk.inj (Except.ok.inj skips)
      rw [← text] at same
      obtain rfl := List.append_cancel_right same
      cases front with
      | nil => exact skip_at_firm c' behind' p firm'
      | cons d front =>
          obtain ⟨rfl, rfl⟩ := List.cons.inj text
          refine skip_none _ _ p (by simpa using seen) (Bool.eq_false_iff.mpr fun opens => ?_)
          have opens := opensComment_local d front behind behind' c c' firm' opens
          unfold opensComment at opens
          split at opens
          · next same => exact noLine _ (List.cons.inj same).1 (List.cons.inj same).2
          · next same => exact noBlock _ (List.cons.inj same).1 (List.cons.inj same).2
          · cases opens

/-! Tokens. -/

theorem escape?_place (c meant : Char) (p : Position) (escapes : escape? c = some meant) :
    p.past ['\\', c] = ⟨p.line, p.column + 2⟩ := by
  have oneLine : c ≠ '\n' := by
    rintro rfl
    cases escapes
  simp [Position.past, Position.after, oneLine]

theorem readString_moves (start : Position) (cs : List Char) (p : Position)
    (read : List Char × Cursor) (made : readString start cs p = .ok read) :
    Moves ⟨cs, p⟩ read.2 := by
  fun_induction readString start cs p generalizing read with
  | case1 => cases made
  | case2 rest p =>
      obtain rfl := Except.ok.inj made
      exact moves_over ['"'] rest p
  | case3 => cases made
  | case4 c rest p meant escapes ih =>
      obtain ⟨⟨text, d⟩, more, same⟩ := (except_bind_ok_iff _ _ _).mp made
      obtain rfl := Except.ok.inj same
      have first := moves_over ['\\', c] rest p
      rw [escape?_place c meant p escapes] at first
      exact moves_trans first (ih (text, d) more)
  | case5 => cases made
  | case6 c rest p _ _ _ ih =>
      obtain ⟨⟨text, d⟩, more, same⟩ := (except_bind_ok_iff _ _ _).mp made
      obtain rfl := Except.ok.inj same
      exact moves_trans (moves_over [c] rest p) (ih (text, d) more)

theorem readToken_moves (c : Cursor) (lexeme : Lexeme) (read : readToken c = .ok lexeme) :
    lexeme.position = c.position ∧ Moves c lexeme.after := by
  obtain ⟨cs, p⟩ := c
  unfold readToken at read
  simp only at read
  split at read
  · obtain rfl := Except.ok.inj read
    exact ⟨rfl, moves_refl _⟩
  · next first rest =>
      split at read
      · obtain rfl := Except.ok.inj read
        exact ⟨rfl, moves_advance _ _⟩
      · split at read
        · split at read
          · obtain rfl := Except.ok.inj read
            exact ⟨rfl, moves_advance _ _⟩
          · cases read
        · split at read
          · next quote =>
              obtain ⟨⟨text, d⟩, more, same⟩ := (except_bind_ok_iff _ _ _).mp read
              obtain rfl := Except.ok.inj same
              exact ⟨rfl, moves_trans (moves_over [first] rest p) (readString_moves _ _ _ _ more)⟩
          · split at read
            · obtain rfl := Except.ok.inj read
              exact ⟨rfl, moves_advance _ _⟩
            · cases read

end Surface

end SimBus
