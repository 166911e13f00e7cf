import SimBus.Proofs.ReaderRules
import SimBus.Proofs.TokenLocality
/-!
The steps that readers consist of. A reader looks at the next token and may take it, or
reads a type or an object path as it stands, or counts what is left. So it stops between
tokens: what it has passed are blanks and comments only, or a whole token at least.
-/

namespace SimBus.Surface

open Cursor (Moves moves_refl moves_trans moves_length moves_advance)

namespace Reader

variable {α β : Type}

theorem run_bind_ok_iff (reader : Reader α) (next : α → Reader β) (c d : Cursor) (b : β) :
    (reader >>= next).run c = .ok (b, d) ↔
      ∃ a e, reader.run c = .ok (a, e) ∧ (next a).run e = .ok (b, d) := by
  rw [StateT.run_bind, except_bind_ok_iff, Prod.exists]

theorem run_bind_ok {reader : Reader α} {c e : Cursor} {a : α} (read : reader.run c = .ok (a, e))
    (next : α → Reader β) : (reader >>= next).run c = (next a).run e := by
  rw [StateT.run_bind, read]
  rfl

theorem run_bind_error {reader : Reader α} {c : Cursor} {fault : GrammarError}
    (failed : reader.run c = .error fault) (next : α → Reader β) :
    (reader >>= next).run c = .error fault := by
  rw [StateT.run_bind, failed]
  rfl

theorem run_pure_ok_iff (a b : α) (c d : Cursor) :
    (pure a : Reader α).run c = .ok (b, d) ↔ b = a ∧ d = c := by
  rw [StateT.run_pure]
  constructor
  · intro same
    obtain ⟨rfl, rfl⟩ := Prod.mk.inj (Except.ok.inj same)
    exact ⟨rfl, rfl⟩
  · rintro ⟨rfl, rfl⟩
    rfl

theorem run_skipping (next : Cursor → Reader α) (c : Cursor) :
    (do
      let cursor ← (← get).skip
      set cursor
      next cursor : Reader α).run c = c.skip >>= fun d => (next d).run d := by
  cases skips : c.skip with
  | error e =>
      simp only [StateT.run_bind, StateT.run_get, pure_bind, skips]
      rfl
  | ok d => exact skipping_run next c d skips

theorem run_peek (c : Cursor) :
    peek.run c = c.skip >>= fun d => (readToken d).map fun lexeme => (lexeme, d) := by
  rw [peek, run_skipping]
  congr 1

theorem run_peek_ok_iff (c d : Cursor) (lexeme : Lexeme) :
    peek.run c = .ok (lexeme, d) ↔ c.skip = .ok d ∧ readToken d = .ok lexeme := by
  rw [run_peek, except_bind_ok_iff]
  constructor
  · rintro ⟨e, skips, mapped⟩
    obtain ⟨found, read, same⟩ := (except_map_ok_iff _ _ _).mp mapped
    obtain ⟨rfl, rfl⟩ := Prod.mk.inj same
    exact ⟨skips, read⟩
  · rintro ⟨skips, read⟩
    exact ⟨d, skips, by rw [read]; rfl⟩

theorem run_fail (position : Position) (expected found : String) (c : Cursor) :
    (fail position expected found : Reader α).run c = .error ⟨position, expected, found⟩ := rfl

theorem run_type_ok_iff (c d : Cursor) (ty : Ty) : type.run c = .ok (ty, d) ↔
    ∃ p rest, c.skip = .ok ⟨ty.letters ++ rest, p⟩ ∧ ty.KeysBasic ∧
      (∀ n ∈ rest.head?, isNameChar n = false) ∧ d = ⟨rest, p.past ty.letters⟩ := by
  have after (ty : Ty) (rest : List Char) (p : Position) :
      Cursor.advance ((ty.letters ++ rest).length - rest.length) ⟨ty.letters ++ rest, p⟩ =
        ⟨rest, p.past ty.letters⟩ := by
    rw [List.length_append, Nat.add_sub_cancel, Cursor.advance_past]
  rw [type, run_skipping, except_bind_ok_iff]
  constructor
  · rintro ⟨⟨cs, p⟩, skips, read⟩
    cases cs with
    | nil =>
        obtain ⟨lexeme, e, -, failed⟩ := (run_bind_ok_iff _ _ _ _ _).mp read
        cases failed
    | cons first more =>
        by_cases starts : Ty.startsWith first = true
        · cases found : Ty.readFront (first :: more) with
          | error fault => simp [starts, found, run_fail] at read
          | ok front =>
              obtain ⟨kind, rest⟩ := front
              obtain ⟨basic, spelled⟩ := Ty.readFront_spells _ _ found
              simp only at basic spelled
              simp only [starts, ↓reduceIte, found] at read
              simp only [spelled, after] at read skips
              refine ⟨p, rest, ?_⟩
              cases rest with
              | nil =>
                  obtain ⟨rfl, rfl⟩ := Prod.mk.inj (Except.ok.inj read)
                  exact ⟨skips, basic, by simp, rfl⟩
              | cons next left =>
                  by_cases goesOn : isNameChar next = true
                  · simp [goesOn, run_fail] at read
                  · simp only [goesOn, Bool.false_eq_true, ↓reduceIte] at read
                    obtain ⟨rfl, rfl⟩ := Prod.mk.inj (Except.ok.inj read)
                    exact ⟨skips, basic, by simpa using goesOn, rfl⟩
        · simp only [starts, Bool.false_eq_true, ↓reduceIte] at read
          obtain ⟨lexeme, e, -, failed⟩ := (run_bind_ok_iff _ _ _ _ _).mp read
          cases failed
  · rintro ⟨p, rest, skips, basic, ends, rfl⟩
    obtain ⟨first, more, text, starts⟩ := letters_begin ty
    have found := Ty.readFront_letters ty rest basic
    refine ⟨_, skips, ?_⟩
    rw [← after ty rest p]
    rw [text, List.cons_append] at found ⊢
    simp only [starts, ↓reduceIte, found]
    cases rest with
    | nil => rfl
    | cons n rest =>
        simp only [ends n rfl, Bool.false_eq_true, ↓reduceIte]
        rfl

theorem run_objectPath_ok_iff (c d : Cursor) (path : String) : objectPath.run c = .ok (path, d) ↔
    ∃ e more, c.skip = .ok e ∧ e.rest = '/' :: more ∧
      path = String.ofList (e.rest.takeWhile isPathChar) ∧
      d = e.advance (e.rest.takeWhile isPathChar).length := by
  rw [objectPath, run_skipping, except_bind_ok_iff]
  constructor
  · rintro ⟨e, skips, read⟩
    split at read
    · next more begins =>
        obtain ⟨rfl, rfl⟩ := Prod.mk.inj (Except.ok.inj read)
        exact ⟨e, more, skips, begins, rfl, rfl⟩
    · obtain ⟨lexeme, at', -, failed⟩ := (run_bind_ok_iff _ _ _ _ _).mp read
      cases failed
  · rintro ⟨e, more, skips, begins, rfl, rfl⟩
    refine ⟨e, skips, ?_⟩
    split
    · rfl
    · next other => exact absurd begins (other more)

end Reader

/-! Stopping between tokens. -/

namespace Cursor

theorem next_ok_iff (c : Cursor) (lexeme : Lexeme) :
    c.next = .ok lexeme ↔ ∃ d, c.skip = .ok d ∧ readToken d = .ok lexeme := by
  rw [next, except_bind_ok_iff]

theorem skip_again (c d : Cursor) (skips : c.skip = .ok d) : d.skip = .ok d :=
  Surface.skip_again _ _ _ d skips

theorem moves_skip (c d : Cursor) (skips : c.skip = .ok d) : Moves c d :=
  skip_moves _ _ _ d skips

theorem next_skip (c d : Cursor) (skips : c.skip = .ok d) : c.next = d.next := by
  rw [next, next, skips, skip_again c d skips]

theorem moves_next (c : Cursor) (lexeme : Lexeme) (next : c.next = .ok lexeme) :
    Moves c lexeme.after := by
  obtain ⟨d, skips, read⟩ := (next_ok_iff c lexeme).mp next
  exact moves_trans (moves_skip c d skips) (readToken_moves d lexeme read).2

theorem moves_advance_le (c : Cursor) (few many : Nat) (less : few ≤ many) :
    Moves (c.advance few) (c.advance many) := by
  obtain ⟨more, rfl⟩ := Nat.exists_eq_add_of_le less
  refine ⟨(c.rest.drop few).take more, ?_, ?_⟩
  · rw [advance_eq, advance_eq, ← List.drop_drop, List.take_append_drop]
  · rw [advance_eq, advance_eq, List.take_add, Position.past_append]

/-- What was passed is nothing but blanks and comments, or at least a whole token. -/
def Passes (c d : Cursor) : Prop :=
  d = c ∨ c.skip = .ok d ∨ ∃ lexeme, c.next = .ok lexeme ∧ Moves lexeme.after d

theorem passes_moves {c d : Cursor} (passes : c.Passes d) : Moves c d := by
  rcases passes with rfl | skips | ⟨lexeme, next, moves⟩
  · exact moves_refl _
  · exact moves_skip c d skips
  · exact moves_trans (moves_next c lexeme next) moves

theorem passes_trans {c d e : Cursor} (first : c.Passes d) (second : d.Passes e) : c.Passes e := by
  rcases first with rfl | skips | ⟨lexeme, next, moves⟩
  · exact second
  · rcases second with rfl | again | ⟨lexeme, next, moves⟩
    · exact .inr (.inl skips)
    · obtain rfl := Except.ok.inj ((skip_again c d skips).symm.trans again)
      exact .inr (.inl skips)
    · exact .inr (.inr ⟨lexeme, (next_skip c d skips).trans next, moves⟩)
  · exact .inr (.inr ⟨lexeme, next, moves_trans moves (passes_moves second)⟩)

end Cursor

open Cursor (Passes passes_moves passes_trans next_ok_iff)

namespace Reader

theorem startsWith_cases (c : Char) (starts : Ty.startsWith c = true) :
    isLetter c = true ∨ c = '(' := by
  simp only [Ty.startsWith, Bool.or_eq_true, beq_iff_eq] at starts
  rcases starts with (known | rfl) | rfl
  · left
    unfold Ty.ofLetter? at known
    split at known <;> first | rfl | cases known
  · exact .inl rfl
  · exact .inr rfl

theorem readToken_letter (c : Char) (rest : List Char) (p : Position) (letter : isLetter c = true) :
    readToken ⟨c :: rest, p⟩ = .ok ⟨.ident (String.ofList ((c :: rest).takeWhile isNameChar)), p,
      Cursor.advance ((c :: rest).takeWhile isNameChar).length ⟨c :: rest, p⟩⟩ := by
  simp only [readToken, letter, ↓reduceIte]

theorem type_passes (c d : Cursor) (ty : Ty) (read : type.run c = .ok (ty, d)) : Passes c d := by
  obtain ⟨p, rest, skips, -, ends, rfl⟩ := (run_type_ok_iff c d ty).mp read
  have whole := Cursor.advance_past ty.letters rest p
  obtain ⟨first, more, text, starts⟩ := letters_begin ty
  -- The first token is no longer than the letters of the type.
  have short : ((ty.letters ++ rest).takeWhile isNameChar).length ≤ ty.letters.length := by
    rw [List.takeWhile_append]
    split
    · cases rest with
      | nil => simp
      | cons n rest => simp [ends n rfl]
    · exact (List.takeWhile_prefix _).length_le
  rw [← whole]
  rw [text, List.cons_append] at skips short ⊢
  rcases startsWith_cases first starts with letter | rfl
  · exact .inr (.inr ⟨_, (next_ok_iff c _).mpr ⟨_, skips, readToken_letter _ _ _ letter⟩,
      Cursor.moves_advance_le _ _ _ short⟩)
  · exact .inr (.inr ⟨_, (next_ok_iff c _).mpr ⟨_, skips, rfl⟩,
      Cursor.moves_advance_le _ 1 _ (Nat.succ_le_succ (Nat.zero_le _))⟩)

theorem objectPath_passes (c d : Cursor) (path : String)
    (read : objectPath.run c = .ok (path, d)) : Passes c d := by
  obtain ⟨⟨_, p⟩, more, skips, rfl, rfl, rfl⟩ := (run_objectPath_ok_iff c d path).mp read
  refine .inr (.inr ⟨_, (next_ok_iff c _).mpr ⟨_, skips, rfl⟩, ?_⟩)
  exact Cursor.moves_advance_le _ 1 _ (Nat.succ_le_succ (Nat.zero_le _))

/-- The readers take the same steps. If both have looked at a token before, which was the
same but for what stands behind it, they may take it. -/
inductive Alike : {α : Type} → (seen : Option (Lexeme × Lexeme)) → Reader α → Reader α → Prop where
  | pure {α : Type} {seen : Option (Lexeme × Lexeme)} (a : α) : Alike seen (pure a) (pure a)
  | fail {α : Type} {seen : Option (Lexeme × Lexeme)} (position : Position)
      (expected found : String) :
      Alike seen (fail position expected found : Reader α) (fail position expected found)
  | bind {α β : Type} {seen : Option (Lexeme × Lexeme)} {reader reader' : Reader α}
      {next next' : α → Reader β} : Alike seen reader reader' →
      (∀ a, Alike none (next a) (next' a)) → Alike seen (reader >>= next) (reader' >>= next')
  | remaining : Alike none remaining remaining
  | type : Alike none type type
  | objectPath : Alike none objectPath objectPath
  | look {α : Type} {next next' : Lexeme → Reader α} : (∀ token position after after',
      Alike (some (⟨token, position, after⟩, ⟨token, position, after'⟩))
        (next ⟨token, position, after⟩) (next' ⟨token, position, after'⟩)) →
      Alike none (peek >>= next) (peek >>= next')
  | take {lexeme lexeme' : Lexeme} : Alike (some (lexeme, lexeme')) (take lexeme) (take lexeme')
  | stay {α : Type} {seen : Option (Lexeme × Lexeme)} {reader reader' : Reader α} :
      Alike none reader reader' → Alike seen reader reader'

def At (seen : Option (Lexeme × Lexeme)) (c : Cursor) : Prop :=
  ∀ pair ∈ seen, c.skip = .ok c ∧ readToken c = .ok pair.1

theorem at_none (c : Cursor) : At none c := by
  rintro pair member
  cases member

theorem at_peeked {c d : Cursor} {lexeme : Lexeme} (peeked : peek.run c = .ok (lexeme, d))
    (other : Lexeme) : At (some (lexeme, other)) d := by
  obtain ⟨skips, read⟩ := (run_peek_ok_iff c d lexeme).mp peeked
  rintro pair member
  obtain rfl := Option.some.inj member
  exact ⟨Cursor.skip_again c d skips, read⟩

theorem alike_passes {seen : Option (Lexeme × Lexeme)} {reader reader' : Reader α}
    (alike : Alike seen reader reader') (c d : Cursor) (a : α) (standing : At seen c)
    (read : reader.run c = .ok (a, d)) : Passes c d := by
  induction alike generalizing c d with
  | pure => exact .inl ((run_pure_ok_iff _ _ _ _).mp read).2
  | fail => cases read
  | bind _ _ first second =>
      obtain ⟨b, e, before, behind⟩ := (run_bind_ok_iff _ _ _ _ _).mp read
      exact passes_trans (first c e b standing before) (second b e d a (at_none e) behind)
  | remaining =>
      obtain ⟨-, rfl⟩ := Prod.mk.inj (Except.ok.inj read)
      exact .inl rfl
  | type => exact type_passes c d _ read
  | objectPath => exact objectPath_passes c d _ read
  | look _ ih =>
      obtain ⟨⟨token, position, after⟩, e, peeked, behind⟩ := (run_bind_ok_iff _ _ _ _ _).mp read
      have skips := ((run_peek_ok_iff _ _ _).mp peeked).1
      exact passes_trans (.inr (.inl skips))
        (ih token position after after e d a (at_peeked peeked _) behind)
  | take =>
      obtain ⟨skips, token⟩ := standing _ rfl
      obtain ⟨-, rfl⟩ := Prod.mk.inj (Except.ok.inj read)
      exact .inr (.inr ⟨_, (next_ok_iff c _).mpr ⟨c, skips, token⟩, moves_refl _⟩)
  | stay _ ih => exact ih c d a (at_none c) read

end Reader

end SimBus.Surface
