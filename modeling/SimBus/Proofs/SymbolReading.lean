import SimBus.Proofs.NumberReading
import SimBus.Proofs.ProgramSymbols
import SimBus.Proofs.SignatureReading
/-!
Reading symbols off a text. What a text shows is said without its places: blanks and
comments first, then a symbol, behind which the text ends or goes on with a blank.
-/

namespace SimBus.Surface

def Symbol.Valid : Symbol → Prop
  | .word name => isWord name.toList = true
  | .integer n => n < integerLimit
  | .type ty => ty.KeysBasic
  | .path p => isWrittenPath p.toList = true
  | .string _ | .punct _ => True

/-- Nothing that stands here belongs to the symbol before. -/
def Separate (behind : List Char) : Prop := ∀ c rest, behind = c :: rest → isBlank c = true

/-- The text consists of the symbols and of what may stand between them. -/
inductive Shows : List Symbol → List Char → Prop where
  | finished (fillers : List Filler) : Shows [] (fillerText fillers)
  | symbol (fillers : List Filler) (radix : Radix) {s : Symbol} {rest : List Symbol}
      {behind : List Char} : s.Valid → Separate behind → Shows rest behind →
      Shows (s :: rest) (fillerText fillers ++ (s.spell radix ++ behind))

/-! Blanks and comments. -/

theorem isBlank_cases (c : Char) (blank : isBlank c = true) :
    c = ' ' ∨ c = '\t' ∨ c = '\n' ∨ c = '\x0c' ∨ c = '\r' := by
  simpa [isBlank, or_assoc] using blank

def blankChars : List Char := [' ', '\t', '\n', '\x0c', '\r']

theorem isBlank_without (p : Char → Bool) (outside : blankChars.any p = false) (c : Char)
    (blank : isBlank c = true) : p c = false := by
  have listed : c ∈ blankChars := by simpa [blankChars] using isBlank_cases c blank
  exact Bool.eq_false_iff.mpr (List.any_eq_false.mp outside c listed)

theorem skip_blank (c : Char) (rest : List Char) (p : Position) (blank : isBlank c = true) :
    skipTrivia .blanks (c :: rest) p = skipTrivia .blanks rest (p.after c) := by
  rcases isBlank_cases c blank with rfl | rfl | rfl | rfl | rfl <;> rfl

theorem skip_line (text rest : List Char) (p : Position) (oneLine : '\n' ∉ text) :
    ∃ q, skipTrivia .line (text ++ '\n' :: rest) p = skipTrivia .blanks rest q := by
  induction text generalizing p with
  | nil => exact ⟨p.after '\n', rfl⟩
  | cons c text ih =>
      obtain ⟨notEnd, inside⟩ := List.ne_and_not_mem_of_not_mem_cons oneLine
      obtain ⟨q, skipped⟩ := ih (p.after c) inside
      refine ⟨q, ?_⟩
      rw [List.cons_append, skipTrivia, if_neg (Ne.symm notEnd), skipped]

theorem skip_block (text rest : List Char) (start p : Position)
    (unclosed : ¬ ['*', '/'] <:+: text) :
    ∃ q, skipTrivia (.block start) (text ++ '*' :: '/' :: rest) p = skipTrivia .blanks rest q := by
  induction text generalizing p with
  | nil => exact ⟨_, rfl⟩
  | cons c text ih =>
      have inside : ¬ ['*', '/'] <:+: text := fun closes =>
        unclosed (closes.trans ⟨[c], [], by simp⟩)
      obtain ⟨q, skipped⟩ := ih (p.after c) inside
      refine ⟨q, ?_⟩
      rw [List.cons_append, skipTrivia, skipped]
      -- A star may stand in the comment, but no slash behind it.
      rintro more rfl slash
      cases text with
      | nil => exact absurd (List.cons.inj slash).1 (by decide)
      | cons d text =>
          obtain ⟨rfl, -⟩ := List.cons.inj slash
          exact unclosed ⟨[], text, rfl⟩

theorem skip_fillers (fillers : List Filler) (cs : List Char) (p : Position) :
    ∃ q, skipTrivia .blanks (fillerText fillers ++ cs) p = skipTrivia .blanks cs q := by
  induction fillers generalizing p with
  | nil => exact ⟨p, rfl⟩
  | cons filler rest ih =>
      rw [fillerText, List.flatMap_cons, List.append_assoc]
      cases filler with
      | blank c blank =>
          obtain ⟨q, skipped⟩ := ih (p.after c)
          exact ⟨q, (skip_blank c _ p blank).trans skipped⟩
      | line text oneLine =>
          obtain ⟨middle, comment⟩ :=
            skip_line text (fillerText rest ++ cs) ⟨p.line, p.column + 2⟩ oneLine
          obtain ⟨q, skipped⟩ := ih middle
          refine ⟨q, ?_⟩
          simp only [Filler.text, List.cons_append, List.append_assoc, List.nil_append]
          exact comment.trans skipped
      | block text unclosed =>
          obtain ⟨middle, comment⟩ :=
            skip_block text (fillerText rest ++ cs) p ⟨p.line, p.column + 2⟩ unclosed
          obtain ⟨q, skipped⟩ := ih middle
          refine ⟨q, ?_⟩
          simp only [Filler.text, List.cons_append, List.append_assoc, List.nil_append]
          exact comment.trans skipped

def opensComment : List Char → Bool
  | '/' :: '/' :: _ | '/' :: '*' :: _ => true
  | _ => false

theorem skip_none (c : Char) (rest : List Char) (p : Position) (seen : isBlank c = false)
    (noComment : opensComment (c :: rest) = false) :
    skipTrivia .blanks (c :: rest) p = .ok ⟨c :: rest, p⟩ := by
  rw [skipTrivia, if_neg (by simp [seen])]
  · rintro more rfl rfl
    simp [opensComment] at noComment
  · rintro more rfl rfl
    simp [opensComment] at noComment

/-! Where symbols begin and end. -/

theorem separate_takeWhile (p : Char → Bool) (text behind : List Char)
    (inside : ∀ c ∈ text, p c = true) (outside : blankChars.any p = false)
    (separate : Separate behind) : (text ++ behind).takeWhile p = text := by
  rw [List.takeWhile_append_of_pos inside]
  cases behind with
  | nil => simp
  | cons c rest => simp [isBlank_without p outside c (separate c rest rfl)]

theorem advance_rest (count : Nat) (cs : List Char) (p : Position) :
    (Cursor.advance count ⟨cs, p⟩).rest = cs.drop count := by
  induction count generalizing cs p with
  | zero => rfl
  | succ count ih =>
      cases cs with
      | nil => rfl
      | cons c rest => exact ih rest (p.after c)

theorem advance_over (text behind : List Char) (p : Position) :
    (Cursor.advance text.length ⟨text ++ behind, p⟩).rest = behind := by
  rw [advance_rest, List.drop_left]

/-! Digits. -/

theorem digitChar_value (capital : Bool) (d : Nat) (small : d < 16) :
    Digits.value (letterCase capital (Nat.digitChar d)) = d ∧
      Digits.isHexadecimal (letterCase capital (Nat.digitChar d)) = true := by
  revert capital d
  decide

theorem number_append (base : Nat) (digits : List Char) (c : Char) :
    Digits.number base (digits ++ [c]) = base * Digits.number base digits + Digits.value c := by
  rw [Digits.number, List.foldl_append]
  rfl

theorem toDigits_read (capital : Bool) (base n : Nat) (proper : 1 < base) (small : base ≤ 16) :
    Digits.number base ((Nat.toDigits base n).map (letterCase capital)) = n ∧
      ∀ c ∈ (Nat.toDigits base n).map (letterCase capital), Digits.isHexadecimal c = true := by
  induction n using Nat.strongRecOn with
  | ind n ih =>
      rw [Nat.toDigits_eq_if proper]
      split
      · obtain ⟨value, digit⟩ := digitChar_value capital n (by omega)
        simp [Digits.number, value, digit]
      · have remainder := Nat.mod_lt n (Nat.zero_lt_of_lt proper)
        obtain ⟨value, digit⟩ := digitChar_value capital (n % base) (by omega)
        obtain ⟨number, digits⟩ := ih (n / base) (Nat.div_lt_self (by omega) proper)
        rw [List.map_append, List.map_singleton]
        -- The last digit stands for the remainder, the others for the quotient.
        refine ⟨?_, fun c inside => ?_⟩
        · rw [number_append, number, value, Nat.div_add_mod]
        · rcases List.mem_append.mp inside with before | last
          · exact digits c before
          · rwa [List.mem_singleton.mp last]

theorem spell_literal (radix : Radix) (n : Nat) :
    ∃ literal : Literal, literal.text = radix.spell n ∧ literal.value = n := by
  cases radix with
  | decimal =>
      have number := (toDigits_read false 10 n (by decide) (by decide)).1
      rw [show letterCase false = id from rfl, List.map_id] at number
      exact ⟨.decimal (Nat.toDigits 10 n) Nat.toDigits_ne_nil fun c inside =>
        Nat.isDigit_of_mem_toDigits (by decide) (by decide) inside, rfl, number⟩
  | hexadecimal capital =>
      obtain ⟨number, digits⟩ := toDigits_read capital 16 n (by decide) (by decide)
      exact ⟨.hexadecimal false _ (by simp [Nat.toDigits_ne_nil]) digits, rfl, number⟩

theorem Separate.ends {behind : List Char} (separate : Separate behind) : Ends behind := by
  intro c first
  obtain ⟨rest, rfl⟩ := List.head?_eq_some_iff.mp first
  rcases isBlank_cases c (separate c rest rfl) with rfl | rfl | rfl | rfl | rfl <;> decide

theorem readNumber_spell (radix : Radix) (n : Nat) (behind : List Char)
    (inRange : n < integerLimit) (separate : Separate behind) :
    readNumber (radix.spell n ++ behind) = .ok (.integer n, (radix.spell n).length) := by
  obtain ⟨literal, text, rfl⟩ := spell_literal radix n
  rw [← text, readNumber_literal literal behind separate.ends, if_pos inRange]

/-! Strings and marks. -/

theorem readString_escaped (start : Position) (text behind : List Char) (p : Position) :
    ∃ q, readString start (text.flatMap escaped ++ '"' :: behind) p = .ok (text, ⟨behind, q⟩) := by
  induction text generalizing p with
  | nil => exact ⟨p.after '"', rfl⟩
  | cons c text ih =>
      rw [List.flatMap_cons, List.append_assoc]
      by_cases quoted : c = '"' ∨ c = '\\'
      · obtain ⟨q, read⟩ := ih ⟨p.line, p.column + 2⟩
        refine ⟨q, ?_⟩
        rcases quoted with rfl | rfl
        all_goals
          simp [escaped, readString, escape?, read, bind, Except.bind, pure, Except.pure]
      · obtain ⟨q, read⟩ := ih (p.after c)
        obtain ⟨notQuote, notSlash⟩ := not_or.mp quoted
        refine ⟨q, ?_⟩
        rw [escaped, if_neg quoted, List.singleton_append, readString]
        · simp [notSlash, read, bind, Except.bind, pure, Except.pure]
        · exact notQuote
        · rintro d more rfl
          exact absurd rfl notSlash

theorem punct?_text (mark : Punct) (behind : List Char) (separate : Separate behind) :
    punct? (mark.text.toList ++ behind) = some (mark, mark.text.toList.length) := by
  cases behind with
  | nil => cases mark <;> rfl
  | cons c rest =>
      rcases isBlank_cases c (separate c rest rfl) with rfl | rfl | rfl | rfl | rfl <;>
        cases mark <;> rfl

/-! Tokens. -/

def Symbol.token? : Symbol → Option Token
  | .word name => some (.ident name)
  | .integer n => some (.integer n)
  | .string text => some (.string text)
  | .punct mark => some (.punct mark)
  | .type _ | .path _ => none

theorem isLetter_nameChar (c : Char) (letter : isLetter c = true) : isNameChar c = true := by
  simp only [isLetter, isNameChar, Char.isAlphanum, Bool.or_eq_true] at letter ⊢
  exact letter.imp_left Or.inl

theorem isWord_cases (text : List Char) (word : isWord text = true) :
    ∃ c rest, text = c :: rest ∧ isLetter c = true ∧ ∀ d ∈ text, isNameChar d = true := by
  cases text with
  | nil => cases word
  | cons c rest =>
      simp only [isWord, Bool.and_eq_true, List.all_eq_true] at word
      exact ⟨c, rest, rfl, word.1, List.forall_mem_cons.mpr ⟨isLetter_nameChar c word.1, word.2⟩⟩

theorem isDigit_not_letter (c : Char) (digit : c.isDigit = true) : isLetter c = false := by
  have digits : ∀ n < 58, 48 ≤ n → isLetter (Char.ofNat n) = false := by decide
  obtain ⟨least, most⟩ := Char.isDigit_iff_toNat.mp digit
  have same := digits c.toNat (Nat.lt_succ_of_le most) least
  rwa [Char.ofNat_toNat] at same

theorem spell_digit (radix : Radix) (n : Nat) :
    ∃ c rest, radix.spell n = c :: rest ∧ c.isDigit = true := by
  cases radix with
  | hexadecimal capital => exact ⟨'0', _, rfl, rfl⟩
  | decimal =>
      obtain ⟨c, rest, digits⟩ := List.exists_cons_of_ne_nil (@Nat.toDigits_ne_nil n 10)
      exact ⟨c, rest, digits, Nat.isDigit_of_mem_toDigits (by decide) (by decide)
        (digits ▸ List.mem_cons_self)⟩

theorem text_mark (mark : Punct) : ∃ c rest, mark.text.toList = c :: rest ∧
    isLetter c = false ∧ c.isDigit = false ∧ c ≠ '"' := by
  cases mark <;> exact ⟨_, _, rfl, rfl, rfl, by decide⟩

theorem readToken_spell (radix : Radix) (s : Symbol) (token : Token) (behind : List Char)
    (p : Position) (made : s.token? = some token) (valid : s.Valid) (separate : Separate behind) :
    ∃ after, readToken ⟨s.spell radix ++ behind, p⟩ = .ok ⟨token, p, after⟩ ∧
      after.rest = behind := by
  cases s with
  | word name =>
      obtain rfl := Option.some.inj made
      obtain ⟨c, rest, text, letter, inside⟩ := isWord_cases _ valid
      have whole := separate_takeWhile isNameChar _ behind inside rfl separate
      refine ⟨_, ?_, advance_over name.toList behind p⟩
      rw [text] at whole
      simp only [readToken, Symbol.spell, text, List.cons_append, letter, ↓reduceIte] at whole ⊢
      rw [whole, ← text, String.ofList_toList]
  | integer n =>
      obtain rfl := Option.some.inj made
      obtain ⟨c, rest, text, digit⟩ := spell_digit radix n
      have read := readNumber_spell radix n behind valid separate
      refine ⟨_, ?_, advance_over (radix.spell n) behind p⟩
      rw [text] at read
      simp only [readToken, Symbol.spell, text, List.cons_append, isDigit_not_letter c digit, digit,
        Bool.false_eq_true, ↓reduceIte] at read ⊢
      rw [read]
  | string text =>
      obtain rfl := Option.some.inj made
      obtain ⟨q, read⟩ := readString_escaped p text.toList behind (p.after '"')
      refine ⟨⟨behind, q⟩, ?_, rfl⟩
      simp [readToken, Symbol.spell, read, isLetter, bind, Except.bind, pure, Except.pure]
  | punct mark =>
      obtain rfl := Option.some.inj made
      obtain ⟨c, rest, text, notLetter, notDigit, notQuote⟩ := text_mark mark
      have read := punct?_text mark behind separate
      refine ⟨_, ?_, advance_over mark.text.toList behind p⟩
      rw [text] at read
      simp only [readToken, Symbol.spell, text, List.cons_append, notLetter, notDigit, notQuote,
        Bool.false_eq_true, ↓reduceIte] at read ⊢
      rw [read]
  | type ty => cases made
  | path p => cases made

/-! The next symbol. -/

theorem letters_begin (ty : Ty) : ∃ c rest, ty.letters = c :: rest ∧ Ty.startsWith c = true := by
  cases ty with
  | int kind => cases kind <;> exact ⟨_, _, rfl, rfl⟩
  | _ => exact ⟨_, _, rfl, rfl⟩

theorem opensComment_other (c : Char) (rest : List Char) (other : c ≠ '/') :
    opensComment (c :: rest) = false := by
  unfold opensComment
  split
  · next text => exact absurd (List.cons.inj text).1 other
  · next text => exact absurd (List.cons.inj text).1 other
  · rfl

theorem isWrittenPath_cases (text : List Char) (written : isWrittenPath text = true) :
    ∃ rest, text = '/' :: rest ∧ (∀ c ∈ text, Reader.isPathChar c = true) ∧
      ∀ d more, rest = d :: more → d ≠ '/' := by
  unfold isWrittenPath at written
  split at written
  · next rest =>
      simp only [Bool.and_eq_true, List.all_eq_true, bne_iff_ne, ne_eq] at written
      refine ⟨rest, rfl, List.forall_mem_cons.mpr ⟨rfl, written.1⟩, ?_⟩
      rintro d more rfl rfl
      exact written.2 rfl
  · cases written

theorem slash_separate (behind : List Char) (separate : Separate behind) :
    opensComment ('/' :: behind) = false := by
  cases behind with
  | nil => rfl
  | cons c rest =>
      rcases isBlank_cases c (separate c rest rfl) with rfl | rfl | rfl | rfl | rfl <;> rfl

/-- No symbol is taken for a blank or a comment. -/
theorem spell_begins (radix : Radix) (s : Symbol) (behind : List Char) (valid : s.Valid)
    (separate : Separate behind) :
    ∃ c rest, s.spell radix = c :: rest ∧ isBlank c = false ∧
      opensComment (c :: (rest ++ behind)) = false := by
  -- It is enough that the first character begins no comment.
  have plain (property : Char → Bool) (notSlash : property '/' = false)
      (notBlank : blankChars.any property = false) (c : Char) (rest : List Char)
      (text : s.spell radix = c :: rest) (has : property c = true) :
      ∃ c rest, s.spell radix = c :: rest ∧ isBlank c = false ∧
        opensComment (c :: (rest ++ behind)) = false := by
    refine ⟨c, rest, text, ?_, opensComment_other c _ ?_⟩
    · refine Bool.eq_false_iff.mpr fun blank => ?_
      rw [isBlank_without property notBlank c blank] at has
      cases has
    · rintro rfl
      rw [notSlash] at has
      cases has
  cases s with
  | word name =>
      obtain ⟨c, rest, text, letter, -⟩ := isWord_cases _ valid
      exact plain isLetter rfl rfl c rest text letter
  | integer n =>
      obtain ⟨c, rest, text, digit⟩ := spell_digit radix n
      exact plain Char.isDigit rfl rfl c rest text digit
  | string text => exact ⟨'"', _, rfl, rfl, rfl⟩
  | punct mark =>
      cases mark with
      | slash => exact ⟨'/', [], rfl, rfl, slash_separate behind separate⟩
      | _ => exact ⟨_, _, rfl, rfl, opensComment_other _ _ (by decide)⟩
  | type ty =>
      obtain ⟨c, rest, text, begins⟩ := letters_begin ty
      exact plain Ty.startsWith rfl rfl c rest text begins
  | path p =>
      obtain ⟨rest, text, inside, single⟩ := isWrittenPath_cases _ valid
      refine ⟨'/', rest, text, rfl, ?_⟩
      -- A path begins with a slash itself, so its second character counts.
      cases rest with
      | nil => exact slash_separate behind separate
      | cons d rest =>
          have pathChar := inside d (by simp [text])
          have notSlash := single d rest rfl
          have notStar : d ≠ '*' := by
            rintro rfl
            exact absurd pathChar (by decide)
          unfold opensComment
          split
          · next same => exact absurd (List.cons.inj (List.cons.inj same).2).1 notSlash
          · next same => exact absurd (List.cons.inj (List.cons.inj same).2).1 notStar
          · rfl

theorem skip_spell (radix : Radix) (s : Symbol) (behind : List Char) (p : Position)
    (valid : s.Valid) (separate : Separate behind) :
    skipTrivia .blanks (s.spell radix ++ behind) p = .ok ⟨s.spell radix ++ behind, p⟩ := by
  obtain ⟨c, rest, text, seen, noComment⟩ := spell_begins radix s behind valid separate
  rw [text]
  exact skip_none c _ p seen noComment

def nextToken : List Symbol → Option Token
  | [] => some .endOfText
  | s :: _ => s.token?

theorem Shows.skip {s : Symbol} {rest : List Symbol} {cs : List Char} (shows : Shows (s :: rest) cs)
    (p : Position) :
    ∃ radix behind q, skipTrivia .blanks cs p = .ok ⟨s.spell radix ++ behind, q⟩ ∧ s.Valid ∧
      Separate behind ∧ Shows rest behind := by
  cases shows with
  | symbol fillers radix valid separate more =>
      obtain ⟨q, skipped⟩ := skip_fillers fillers _ p
      exact ⟨radix, _, q, skipped.trans (skip_spell radix s _ q valid separate), valid,
        separate, more⟩

theorem Shows.next {symbols : List Symbol} {cs : List Char} (shows : Shows symbols cs)
    (token : Token) (made : nextToken symbols = some token) (p : Position) :
    ∃ skipped lexeme, skipTrivia .blanks cs p = .ok skipped ∧ readToken skipped = .ok lexeme ∧
      lexeme.token = token ∧ Shows symbols skipped.rest ∧ Shows symbols.tail lexeme.after.rest := by
  cases symbols with
  | nil =>
      cases shows with
      | finished fillers =>
          obtain rfl := Option.some.inj made
          obtain ⟨q, skipped⟩ := skip_fillers fillers [] p
          rw [List.append_nil] at skipped
          exact ⟨⟨[], q⟩, _, skipped, rfl, rfl, .finished [], .finished []⟩
  | cons s rest =>
      obtain ⟨radix, behind, q, skipped, valid, separate, more⟩ := shows.skip p
      obtain ⟨after, read, final⟩ := readToken_spell radix s token behind q made valid separate
      exact ⟨_, _, skipped, read, rfl, .symbol [] radix valid separate more, final ▸ more⟩

theorem Shows.length_le {symbols : List Symbol} {cs : List Char} (shows : Shows symbols cs) :
    symbols.length ≤ cs.length := by
  induction shows with
  | finished => exact Nat.zero_le _
  | symbol fillers radix valid separate _ ih =>
      obtain ⟨c, rest, text, -⟩ := spell_begins radix _ _ valid separate
      simp only [text, List.length_cons, List.length_append]
      omega

/-! Texts that are laid out. -/

def Gap.fillers (gap : Gap) : List Filler := .blank gap.first gap.isBlank :: gap.more

theorem gap_text (gap : Gap) : gap.text = fillerText gap.fillers := rfl

theorem gap_separate (gap : Gap) (cs : List Char) : Separate (gap.text ++ cs) := by
  rintro c rest begins
  obtain ⟨rfl, -⟩ := List.cons.inj begins
  exact gap.isBlank

theorem trail_separate (layout : Layout) (index : Nat) : Separate (layout.spell index []) := by
  rw [Layout.spell]
  cases layout.trail with
  | none => exact nofun
  | some gap => simpa using gap_separate gap []

theorem spell_shows (layout : Layout) (symbols : List Symbol) (index : Nat) (fillers : List Filler)
    (valid : ∀ s ∈ symbols, s.Valid) :
    Shows symbols (fillerText fillers ++ layout.spell index symbols) := by
  induction symbols generalizing index fillers with
  | nil =>
      rw [Layout.spell]
      cases layout.trail with
      | none => simpa using Shows.finished fillers
      | some gap =>
          have text : fillerText fillers ++ gap.text = fillerText (fillers ++ gap.fillers) := by
            rw [gap_text, fillerText, fillerText, fillerText, List.flatMap_append]
          simpa [text] using Shows.finished (fillers ++ gap.fillers)
  | cons s rest ih =>
      obtain ⟨first, others⟩ := List.forall_mem_cons.mp valid
      rw [Layout.spell]
      by_cases last : rest = []
      · subst last
        exact .symbol fillers _ first (trail_separate layout (index + 1)) (ih (index + 1) [] others)
      · have more : rest.isEmpty = false := by simp [last]
        rw [more, if_neg Bool.false_ne_true]
        refine .symbol fillers _ first (gap_separate _ _) ?_
        rw [gap_text]
        exact ih (index + 1) (layout.gap index).fillers others

end SimBus.Surface
