import SimBus.Proofs.GrammarSteps
/-!
What a reader does not depend on. A reader that stops in front of an equality sign reads
the same, and stops there, whatever stands behind the sign, as long as it is as much.
-/

namespace SimBus.Surface

open Cursor (Moves Passes next_ok_iff)

namespace Cursor

/-- The cursors stand in front of the same text, but for what it ends with. -/
def Parted (behind behind' : List Char) (c c' : Cursor) : Prop :=
  ∃ left, c.rest = left ++ behind ∧ c' = ⟨left ++ behind', c.position⟩

/-- The next token begins in front of what is behind the sign, and ends there too. -/
def Steady (behind : List Char) (c : Cursor) : Prop :=
  ∃ front place lexeme, c.skip = .ok ⟨front ++ '=' :: behind, place⟩ ∧
    readToken ⟨front ++ '=' :: behind, place⟩ = .ok lexeme ∧
    behind.length ≤ lexeme.after.rest.length

variable {behind behind' : List Char}

theorem firm_sign : Firm '=' := ⟨rfl, by decide, by decide⟩

theorem Parted.length {c c' : Cursor} (parted : Parted behind behind' c c')
    (same : behind'.length = behind.length) : c'.rest.length = c.rest.length := by
  obtain ⟨left, rest, rfl⟩ := parted
  simp [rest, same]

/-- Where a reader has stopped in front of the sign, it has not passed it before. -/
theorem steady_passes {c d : Cursor} (passes : c.Passes d) (steady : d.Steady behind) :
    c.Steady behind := by
  obtain ⟨front, place, lexeme, skips, read, within⟩ := steady
  rcases passes with rfl | between | ⟨first, next, more, text, -⟩
  · exact ⟨front, place, lexeme, skips, read, within⟩
  · obtain rfl := Except.ok.inj ((skip_again c d between).symm.trans skips)
    exact ⟨front, place, lexeme, between, read, within⟩
  · obtain ⟨⟨_, p⟩, before, token⟩ := (next_ok_iff c first).mp next
    obtain ⟨taken, rfl, -⟩ := (readToken_moves _ first token).2
    obtain ⟨blanks, left, -⟩ := moves_skip d _ skips
    have whole : taken ++ first.after.rest =
        (taken ++ more ++ blanks ++ front) ++ '=' :: behind := by
      simp [text, left]
    rw [whole] at before token
    refine ⟨_, p, first, before, token, ?_⟩
    simp [text, left]
    omega

theorem Parted.skip {c c' : Cursor} (parted : Parted behind behind' c c') (front : List Char)
    (place : Position) (skips : c.skip = .ok ⟨front ++ '=' :: behind, place⟩) :
    c'.skip = .ok ⟨front ++ '=' :: behind', place⟩ := by
  obtain ⟨left, rest, rfl⟩ := parted
  obtain ⟨blanks, text, -⟩ := moves_skip c _ skips
  simp only [rest] at text
  have text : left ++ behind = (blanks ++ front ++ ['=']) ++ behind := by simp [text]
  obtain rfl := List.append_cancel_right text
  have whole (behind : List Char) :
      blanks ++ front ++ ['='] ++ behind = (blanks ++ front) ++ '=' :: behind := by simp
  rw [Cursor.skip, rest, whole] at skips
  rw [Cursor.skip, whole]
  exact skip_local .blanks _ front behind behind' '=' '=' _ place firm_sign firm_sign skips

end Cursor

open Cursor (Parted Steady steady_passes)

namespace Reader

variable {α : Type} {behind behind' : List Char}

theorem steady_front {d : Cursor} (steady : Steady behind d) :
    ∃ front, d.rest = front ++ '=' :: behind := by
  obtain ⟨front, place, -, skips, -, -⟩ := steady
  obtain ⟨blanks, text, -⟩ := Cursor.moves_skip d _ skips
  exact ⟨blanks ++ front, by simp [text]⟩

theorem parted_front (front : List Char) (p : Position) :
    Parted behind behind' ⟨front ++ '=' :: behind, p⟩ ⟨front ++ '=' :: behind', p⟩ :=
  ⟨front ++ ['='], by simp, by simp⟩

theorem type_local {c c' d : Cursor} {ty : Ty} (parted : Parted behind behind' c c')
    (read : type.run c = .ok (ty, d)) (steady : Steady behind d) :
    ∃ d', type.run c' = .ok (ty, d') ∧ Parted behind behind' d d' := by
  obtain ⟨p, rest, skips, basic, ends, rfl⟩ := (run_type_ok_iff c d ty).mp read
  obtain ⟨front, rfl⟩ := steady_front steady
  refine ⟨_, (run_type_ok_iff c' _ ty).mpr ⟨p, front ++ '=' :: behind', ?_, basic, ?_, rfl⟩,
    parted_front front _⟩
  · rw [← List.append_assoc] at skips ⊢
    exact parted.skip _ p skips
  · cases front <;> exact ends

theorem objectPath_local {c c' d : Cursor} {path : String} (parted : Parted behind behind' c c')
    (read : objectPath.run c = .ok (path, d)) (steady : Steady behind d) :
    ∃ d', objectPath.run c' = .ok (path, d') ∧ Parted behind behind' d d' := by
  obtain ⟨⟨text, p⟩, more, skips, begins, rfl, rfl⟩ := (run_objectPath_ok_iff c d path).mp read
  obtain ⟨front, left⟩ := steady_front steady
  generalize taken : text.takeWhile isPathChar = path at *
  have whole : text = (path ++ front) ++ '=' :: behind := by
    rw [Cursor.advance_eq] at left
    rw [← List.takeWhile_append_dropWhile (p := isPathChar) (l := text), taken] at left ⊢
    simpa using left
  subst whole
  have taken' : ((path ++ front) ++ '=' :: behind').takeWhile isPathChar = path := by
    rw [takeWhile_local _ _ _ rfl] at taken ⊢
    exact taken
  obtain ⟨others, first, -⟩ := front_cons (by decide) begins
  refine ⟨_, (run_objectPath_ok_iff c' _ _).mpr ⟨⟨(path ++ front) ++ '=' :: behind', p⟩,
    others ++ '=' :: behind', parted.skip _ p skips, by simp [first], by rw [taken'], rfl⟩, ?_⟩
  simp only [List.append_assoc] at taken' ⊢
  simp only [taken', Cursor.advance_past]
  exact parted_front front _

theorem peek_local {c c' d : Cursor} {lexeme : Lexeme} (single : Single behind)
    (single' : Single behind') (parted : Parted behind behind' c c')
    (peeked : peek.run c = .ok (lexeme, d)) (steady : Steady behind c) :
    ∃ after' d', peek.run c' = .ok (⟨lexeme.token, lexeme.position, after'⟩, d') ∧
      Parted behind behind' lexeme.after after' ∧ Parted behind behind' d d' := by
  obtain ⟨skips, read⟩ := (run_peek_ok_iff c d lexeme).mp peeked
  obtain ⟨front, place, found, skips', read', within⟩ := steady
  obtain rfl := Except.ok.inj (skips'.symm.trans skips)
  obtain rfl := Except.ok.inj (read'.symm.trans read)
  obtain ⟨left, rest, again⟩ :=
    readToken_local front behind behind' single single' place found read within
  exact ⟨_, _, (run_peek_ok_iff c' _ _).mpr ⟨parted.skip front place skips, again⟩,
    ⟨left, rest, rfl⟩, parted_front front place⟩

/-- The tokens that were looked at, in front of texts that part only behind the sign. -/
def PartedAt (behind behind' : List Char) (seen : Option (Lexeme × Lexeme)) : Prop :=
  ∀ pair ∈ seen, Parted behind behind' pair.1.after pair.2.after

theorem partedAt_none : PartedAt behind behind' none := by
  rintro pair member
  cases member

theorem alike_local (same : behind'.length = behind.length) (single : Single behind)
    (single' : Single behind') {seen : Option (Lexeme × Lexeme)} {reader reader' : Reader α}
    (alike : Alike seen reader reader') (c c' d : Cursor) (a : α) (standing : At seen c)
    (partedAt : PartedAt behind behind' seen) (parted : Parted behind behind' c c')
    (read : reader.run c = .ok (a, d)) (steady : Steady behind d) :
    ∃ d', reader'.run c' = .ok (a, d') ∧ Parted behind behind' d d' := by
  induction alike generalizing c c' d with
  | pure =>
      obtain ⟨rfl, rfl⟩ := (run_pure_ok_iff _ _ _ _).mp read
      exact ⟨c', rfl, parted⟩
  | fail => cases read
  | bind _ others first second =>
      obtain ⟨b, e, before, after⟩ := (run_bind_ok_iff _ _ _ _ _).mp read
      have between := steady_passes (alike_passes (others b) e d a (at_none e) after) steady
      obtain ⟨e', before', parted⟩ := first c c' e b standing partedAt parted before between
      obtain ⟨d', after', parted⟩ := second b e e' d a (at_none e) partedAt_none parted after steady
      exact ⟨d', (run_bind_ok_iff _ _ _ _ _).mpr ⟨b, e', before', after'⟩, parted⟩
  | remaining =>
      obtain ⟨rfl, rfl⟩ := Prod.mk.inj (Except.ok.inj read)
      refine ⟨c', ?_, parted⟩
      show Except.ok (c'.rest.length, c') = _
      rw [parted.length same]
  | type => exact type_local parted read steady
  | objectPath => exact objectPath_local parted read steady
  | look others ih =>
      have whole := steady_passes (alike_passes (.look others) c d a (at_none c) read) steady
      obtain ⟨⟨token, position, after⟩, e, peeked, continued⟩ := (run_bind_ok_iff _ _ _ _ _).mp read
      obtain ⟨after', e', peeked', partedAfter, parted⟩ :=
        peek_local single single' parted peeked whole
      have partedAt :
          PartedAt behind behind' (some (⟨token, position, after⟩, ⟨token, position, after'⟩)) := by
        rintro pair member
        obtain rfl := Option.some.inj member
        exact partedAfter
      obtain ⟨d', continued', parted⟩ := ih token position after after' e e' d a
        (at_peeked peeked _) partedAt parted continued steady
      exact ⟨d', (run_bind_ok_iff _ _ _ _ _).mpr ⟨_, e', peeked', continued'⟩, parted⟩
  | take =>
      obtain ⟨rfl, rfl⟩ := Prod.mk.inj (Except.ok.inj read)
      exact ⟨_, rfl, partedAt _ rfl⟩
  | stay _ ih => exact ih c c' d a (at_none c) partedAt_none parted read steady

end Reader

end SimBus.Surface
