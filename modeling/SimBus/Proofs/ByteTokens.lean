import SimBus.Proofs.ByteNumbers
/-!
Blanks, comments and tokens read byte by byte. Wherever a slice is taken the offsets lie
between characters, so what is scanned is what is read off characters.
-/

namespace SimBus.Surface.Source

section

variable (text : String)

/-! Blanks and comments. -/

def lineEnd : (rounds : Nat) → (i : Nat) → Scan Nat
  | 0, _ => throw .exhausted
  | rounds + 1, i =>
      match byte? text i with
      | none => pure i
      | some byte => if byte == 10 then pure (i + 1) else lineEnd rounds (i + 1)

/-- Where a comment is closed, in bytes from here. -/
def closing? : List Char → Option Nat
  | '*' :: '/' :: _ => some 0
  | c :: rest => (closing? rest).map (c.utf8Size + ·)
  | [] => none

variable (rounds : Nat)

def skipMore : (more : Nat) → (i : Nat) → Scan Nat
  | 0, _ => throw .exhausted
  | more + 1, i => do
      let i ← run text isBlank rounds i
      if ['/', '/'].isPrefixOf (← sliceFrom text i) then
        let i ← lineEnd text rounds i
        skipMore more i
      else if ['/', '*'].isPrefixOf (← sliceFrom text i) then
        match closing? (← sliceFrom text (i + 2)) with
        | some offset => skipMore more (i + offset + 4)
        | none => syntaxError text i "'*/'" "unterminated comment"
      else pure i

def skip (i : Nat) : Scan Nat := skipMore text rounds rounds i

/-! Strings. -/

/-- Reads a string to its closing quote, `offset` bytes from the opening one. -/
def characters (start : Nat) : (offset : Nat) → List Char → Scan (List Char × Nat)
  | _, [] => syntaxError text start "'\"'" "unterminated string literal"
  | offset, '"' :: _ => pure ([], start + 1 + offset + 1)
  | offset, '\\' :: c :: rest =>
      match escape? c with
      | none =>
          syntaxError text (start + 1 + offset) "a valid escape"
            ("'\\" ++ String.singleton c ++ "'")
      | some meant => do
          let (read, stop) ← characters start (offset + 1 + c.utf8Size) rest
          pure (meant :: read, stop)
  | offset, c :: rest =>
      if c = '\\' then syntaxError text start "'\"'" "unterminated string literal"
      else do
        let (read, stop) ← characters start (offset + c.utf8Size) rest
        pure (c :: read, stop)

def string (start : Nat) : Scan Span := do
  let (read, stop) ← characters text start 0 (← sliceFrom text (start + 1))
  pure ⟨.string (String.ofList read), start, stop⟩

/-! Tokens. -/

def marks : List Punct :=
  [.andAnd, .orOr, .eqEq, .notEq, .le, .ge] ++
    [.lbrace, .rbrace, .lparen, .rparen, .lbracket, .rbracket, .semicolon, .comma, .colon, .dot,
      .at, .lt, .gt, .eq, .bang, .plus, .minus, .star, .slash, .percent]

def mark? (tail : List Char) : Option Punct :=
  marks.find? fun mark => mark.text.toList.isPrefixOf tail

def token (start : Nat) : Scan Span :=
  match byte? text start with
  | none => pure ⟨.endOfText, start, start⟩
  | some byte =>
      if byteIs isLetter byte then do
        let stop ← run text isNameChar rounds start
        let name ← slice text start stop
        pure ⟨.ident (String.ofList name), start, stop⟩
      else if byteIs Char.isDigit byte then number text rounds start
      else if byteIs (· == '"') byte then string text start
      else do
        let tail ← sliceFrom text start
        match mark? tail with
        | some mark => pure ⟨.punct mark, start, start + mark.text.utf8ByteSize⟩
        | none =>
            syntaxError text start "a token"
              ("character '" ++ String.singleton (tail.head?.getD '?') ++ "'")

end

variable {text : String} {rounds : Nat}

/-! Blanks and comments. -/

theorem ascii_blank : Ascii isBlank := by
  intro c is
  rcases isBlank_cases c is with rfl | rfl | rfl | rfl | rfl <;> decide

def lineSize : List Char → Nat
  | [] => 0
  | c :: rest => if c = '\n' then 1 else c.utf8Size + lineSize rest

theorem lineEnd_bytes (rounds : Nat) (earlier passed later : List UInt8)
    (oneLine : ∀ byte ∈ passed, byte ≠ 10) (whole : bytes text = earlier ++ (passed ++ later)) :
    lineEnd text (passed.length + rounds) earlier.length =
      lineEnd text rounds (earlier.length + passed.length) := by
  induction passed generalizing earlier with
  | nil => simp
  | cons byte passed ih =>
      have found : byte? text earlier.length = some byte := by
        rw [byte?, whole, List.getElem?_append_right (Nat.le_refl _), Nat.sub_self]
        rfl
      have other : (byte == 10) = false := beq_eq_false_iff_ne.mpr (oneLine byte (by simp))
      have further := ih (earlier ++ [byte]) (fun byte member => oneLine byte (by simp [member]))
        (by simp [whole])
      rw [List.length_append, List.length_singleton] at further
      rw [List.length_cons, Nat.add_right_comm, lineEnd, found]
      simp only [other, Bool.false_eq_true, ↓reduceIte]
      rw [further, Nat.add_assoc, Nat.add_comm 1]

/-- A scan to the end of a line does not stop within a character. -/
theorem lineEnd_stands {i : Nat} {cs : List Char} (stands : Stands text i cs)
    (enough : size cs < rounds) :
    lineEnd text rounds i = pure (i + lineSize cs) := by
  induction cs generalizing i rounds with
  | nil =>
      obtain ⟨more, rfl⟩ := Nat.exists_eq_add_of_lt enough
      rw [lineEnd, stands.byte?_nil]
      rfl
  | cons c rest ih =>
      rw [lineSize]
      rw [size_cons] at enough
      by_cases newline : c = '\n'
      · subst newline
        obtain ⟨front, whole, rfl⟩ := stands
        obtain ⟨more, rfl⟩ := Nat.exists_eq_add_of_lt enough
        rw [lineEnd, byte?_split whole]
        rfl
      · rw [if_neg newline]
        obtain ⟨more, rfl⟩ := Nat.exists_eq_add_of_le (Nat.le_of_lt (Nat.lt_of_le_of_lt
          (Nat.le_add_right _ _) enough))
        have behind := ih stands.next (Nat.lt_of_add_lt_add_left enough)
        obtain ⟨front, whole, rfl⟩ := stands
        have coded := bytes_split whole
        rw [List.flatMap_cons] at coded
        have further := lineEnd_bytes more _ _ _ (encode_oneLine c newline) coded
        rw [encode_length, String.length_utf8EncodeChar] at further
        rw [further, behind, Nat.add_assoc]

theorem closing?_open (c : Char) (rest : List Char)
    (noEnd : ∀ more, c = '*' → rest = '/' :: more → False) :
    closing? (c :: rest) = (closing? rest).map (c.utf8Size + ·) := by
  rw [closing?]
  exact noEnd

theorem isPrefixOf_pair {a b c : Char} {rest : List Char}
    (begins : [a, b].isPrefixOf (c :: rest) = true) : c = a ∧ ∃ more, rest = b :: more := by
  obtain ⟨more, text⟩ := List.isPrefixOf_iff_prefix.mp begins
  obtain ⟨same, behind⟩ := List.cons.inj text
  exact ⟨same.symm, more, behind.symm⟩

section

variable (enough : size text.toList < rounds)
include enough

theorem skipMore_end {more i : Nat} (stands : Stands text i []) :
    skipMore text rounds (more + 1) i = pure i := by
  rw [skipMore, (stands.run ascii_blank (stands.length_le.trans_lt enough)).1]
  simp [stands.sliceFrom]

theorem skipMore_mark {c : Char} {rest : List Char} {more i : Nat}
    (stands : Stands text i (c :: rest)) (seen : isBlank c = false) :
    skipMore text rounds (more + 1) i =
      if ['/', '/'].isPrefixOf (c :: rest) then lineEnd text rounds i >>= skipMore text rounds more
      else if ['/', '*'].isPrefixOf (c :: rest) then do
        match closing? (← sliceFrom text (i + 2)) with
        | some offset => skipMore text rounds more (i + offset + 4)
        | none => syntaxError text i "'*/'" "unterminated comment"
      else pure i := by
  rw [skipMore, (stands.run ascii_blank (stands.length_le.trans_lt enough)).1, List.takeWhile_cons,
    seen]
  simp only [Bool.false_eq_true, ↓reduceIte, List.length_nil, Nat.add_zero, pure_bind,
    stands.sliceFrom]

theorem skipMore_blank {c : Char} {rest : List Char} {more i : Nat}
    (stands : Stands text i (c :: rest)) (blank : isBlank c = true) :
    skipMore text rounds (more + 1) i = skipMore text rounds (more + 1) (i + c.utf8Size) := by
  have first := (stands.run ascii_blank (stands.length_le.trans_lt enough)).1
  have second := (stands.next.run ascii_blank (stands.next.length_le.trans_lt enough)).1
  rw [List.takeWhile_cons, blank] at first
  simp only [↓reduceIte, List.length_cons] at first
  rw [utf8Size_ascii (ascii_blank c blank), Nat.add_right_comm] at second
  rw [skipMore, skipMore, utf8Size_ascii (ascii_blank c blank), first, second, Nat.add_assoc]

end

/-- The scan that is left after some of the blanks and comments. -/
def resume (text : String) (rounds more : Nat) : Trivia → List Char → Nat → Scan Nat
  | .blanks, _, i => skipMore text rounds more i
  | .line, cs, i => skipMore text rounds more (i + lineSize cs)
  | .block start, cs, i =>
      match closing? cs with
      | some offset => skipMore text rounds more (i + offset + 2)
      | none => throw (.grammar ⟨start, "'*/'", "unterminated comment"⟩)

/-- Blanks and comments are skipped to the same place, wherever in them the scan is. -/
theorem resume_mirrors (enough : size text.toList < rounds) (mode : Trivia) (cs : List Char)
    (p : Position) (more i : Nat) (here : At text ⟨cs, p⟩ i) (left : cs.length < more)
    (begun : ∀ start, mode = .block start → Inside text start) :
    Mirrors text (At text) (skipTrivia mode cs p) (resume text rounds more mode cs i) := by
  fun_induction skipTrivia mode cs p generalizing i more with
  | case1 start p => exact ⟨rfl, begun start rfl⟩
  | case2 start rest p ih =>
      have behind : At text ⟨rest, ⟨p.line, p.column + 2⟩⟩ (i + 2) :=
        At.passed (show At text ⟨['*', '/'] ++ rest, p⟩ i from here)
      exact ih more (i + 2) behind (Nat.lt_of_succ_lt (Nat.lt_of_succ_lt left))
        fun _ same => Trivia.noConfusion same
  | case3 start c rest p noEnd ih =>
      have same : resume text rounds more (.block start) (c :: rest) i =
          resume text rounds more (.block start) rest (i + c.utf8Size) := by
        rw [resume, resume, closing?_open c rest noEnd]
        cases closing? rest with
        | none => rfl
        | some offset => simp only [Option.map_some, Nat.add_assoc]
      rw [same]
      exact ih more (i + c.utf8Size) here.next (Nat.lt_of_succ_lt left) begun
  | case4 p =>
      obtain ⟨fewer, rfl⟩ := Nat.exists_eq_add_one_of_ne_zero (Nat.ne_zero_of_lt left)
      exact ⟨i, skipMore_end enough here.stands, here⟩
  | case5 c rest p ih =>
      have continued := ih more (i + c.utf8Size) here.next (Nat.lt_of_succ_lt left)
      rw [resume, lineSize]
      by_cases newline : c = '\n'
      · subst newline
        exact continued fun _ same => Trivia.noConfusion same
      · simp only [newline, ↓reduceIte] at continued ⊢
        rw [← Nat.add_assoc]
        exact continued fun _ same => Trivia.noConfusion same
  | case6 rest p ih =>
      obtain ⟨fewer, rfl⟩ := Nat.exists_eq_add_one_of_ne_zero (Nat.ne_zero_of_lt left)
      have behind : At text ⟨rest, ⟨p.line, p.column + 2⟩⟩ (i + 2) :=
        At.passed (show At text ⟨['/', '/'] ++ rest, p⟩ i from here)
      have marks : lineSize ('/' :: '/' :: rest) = 1 + (1 + lineSize rest) := rfl
      have place : i + lineSize ('/' :: '/' :: rest) = i + 2 + lineSize rest := by omega
      have ended := lineEnd_stands here.stands (here.stands.size_le.trans_lt enough)
      rw [resume, skipMore_mark enough here.stands rfl, if_pos (by rfl), ended, place]
      exact ih fewer (i + 2) behind (by simp only [List.length_cons] at left; omega)
        fun _ same => Trivia.noConfusion same
  | case7 rest p ih =>
      obtain ⟨fewer, rfl⟩ := Nat.exists_eq_add_one_of_ne_zero (Nat.ne_zero_of_lt left)
      have inner : At text ⟨rest, ⟨p.line, p.column + 2⟩⟩ (i + 2) :=
        At.passed (show At text ⟨['/', '*'] ++ rest, p⟩ i from here)
      have continued := ih fewer (i + 2) inner (by simp only [List.length_cons] at left; omega)
        fun start same => by
          obtain rfl := Trivia.block.inj same
          exact here.inside
      rw [resume] at continued
      rw [resume, skipMore_mark enough here.stands rfl, if_neg (by simp), if_pos (by rfl),
        inner.stands.sliceFrom]
      cases closed : closing? rest with
      | none =>
          rw [closed] at continued
          simp only [pure_bind, closed, syntaxError, here.position]
          exact continued
      | some offset =>
          have place : i + offset + 4 = i + 2 + offset + 2 := by omega
          rw [closed] at continued
          simp only [pure_bind, closed, place]
          exact continued
  | case8 c rest p noLine noBlock blank ih =>
      obtain ⟨fewer, rfl⟩ := Nat.exists_eq_add_one_of_ne_zero (Nat.ne_zero_of_lt left)
      rw [resume, skipMore_blank enough here.stands blank]
      exact ih _ (i + c.utf8Size) here.next (Nat.lt_of_succ_lt left)
        fun _ same => Trivia.noConfusion same
  | case9 c rest p noLine noBlock seen =>
      obtain ⟨fewer, rfl⟩ := Nat.exists_eq_add_one_of_ne_zero (Nat.ne_zero_of_lt left)
      refine ⟨i, ?_, here⟩
      rw [resume, skipMore_mark enough here.stands (by simpa using seen), if_neg, if_neg]
      · intro opens
        obtain ⟨slash, more, rest⟩ := isPrefixOf_pair opens
        exact noBlock more slash rest
      · intro opens
        obtain ⟨slash, more, rest⟩ := isPrefixOf_pair opens
        exact noLine more slash rest
  | case10 p =>
      obtain ⟨fewer, rfl⟩ := Nat.exists_eq_add_one_of_ne_zero (Nat.ne_zero_of_lt left)
      exact ⟨i, skipMore_end enough here.stands, here⟩

theorem skip_mirrors (enough : size text.toList < rounds) {c : Cursor} {i : Nat}
    (here : At text c i) : Mirrors text (At text) c.skip (skip text rounds i) :=
  resume_mirrors enough .blanks c.rest c.position rounds i here
    (here.stands.length_le.trans_lt enough) fun start same => by cases same

/-! What strings and other tokens come to. -/

theorem characters_mirrors {origin : Cursor} {start : Nat} (opened : At text origin start)
    (cs : List Char) (p : Position) (offset : Nat) (here : At text ⟨cs, p⟩ (start + 1 + offset)) :
    Mirrors text (fun read scanned => scanned.1 = read.1 ∧ At text read.2 scanned.2)
      (readString origin.position cs p) (characters text start offset cs) := by
  fun_induction readString origin.position cs p generalizing offset with
  | case1 p => exact opened.fails _ _ _
  | case2 rest p => exact ⟨_, rfl, rfl, here.next⟩
  | case3 c rest p unknown =>
      rw [characters]
      simp only [unknown]
      exact here.fails _ _ _
  | case4 c rest p meant escapes ih =>
      have behind :
          At text ⟨rest, ⟨p.line, p.column + 2⟩⟩ (start + 1 + (offset + 1 + c.utf8Size)) := by
        have passed := At.passed (show At text ⟨['\\', c] ++ rest, p⟩ _ from here)
        have one : ('\\' : Char).utf8Size = 1 := rfl
        rw [escape?_place c meant p escapes, size_cons, size_cons, size_nil, one] at passed
        simpa [Nat.add_assoc] using passed
      rw [characters]
      simp only [escapes]
      refine (ih _ behind).bind fun read scanned _ alike => ?_
      exact ⟨_, rfl, congrArg _ alike.1, alike.2⟩
  | case5 rest p noQuote noEscape =>
      rw [characters, if_pos rfl]
      · exact opened.fails _ _ _
      · exact noQuote
      · exact noEscape
  | case6 c rest p noQuote noEscape other ih =>
      rw [characters, if_neg other]
      · have next := here.next
        rw [Nat.add_assoc] at next
        refine (ih _ next).bind fun read scanned _ alike => ?_
        exact ⟨_, rfl, congrArg _ alike.1, alike.2⟩
      · exact noQuote
      · exact noEscape

/-- The token that has been scanned is the one that was read, and ends where it does. -/
def Matches (text : String) (i : Nat) (lexeme : Lexeme) (span : Span) : Prop :=
  span.token = lexeme.token ∧ span.start = i ∧ At text lexeme.after span.stop

theorem mark?_single (c : Char) (rest : List Char)
    (single : ∀ d more, rest = d :: more → (c, d) ∉ punctPairs) :
    mark? (c :: rest) = mark? [c] := by
  have pairs : ∀ mark ∈ [Punct.andAnd, .orOr, .eqEq, .notEq, .le, .ge],
      ∃ pair ∈ punctPairs, mark.text.toList = [pair.1, pair.2] := by decide
  have noPair (mark : Punct) (double : mark ∈ [Punct.andAnd, .orOr, .eqEq, .notEq, .le, .ge])
      (tail : List Char) (single : ∀ d more, tail = d :: more → (c, d) ∉ punctPairs) :
      ¬ mark.text.toList.isPrefixOf (c :: tail) = true := by
    obtain ⟨pair, known, text⟩ := pairs mark double
    rw [text]
    intro fits
    obtain ⟨first, more, second⟩ := isPrefixOf_pair fits
    exact single _ more second (first ▸ known)
  rw [mark?, mark?, marks, List.find?_append, List.find?_append,
    List.find?_eq_none.mpr fun mark double => noPair mark double rest single,
    List.find?_eq_none.mpr fun mark double => noPair mark double [] (by simp)]
  rfl

theorem mark?_eq (tail : List Char) :
    (mark? tail).map (fun mark => (mark, mark.text.utf8ByteSize)) = punct? tail := by
  unfold punct?
  split
  case h_7 c rest _ _ _ _ _ _ =>
    rw [mark?_single c rest (by rintro d more rfl; simp [punctPairs]; grind)]
    split
    all_goals first | rfl | skip
    rw [mark?, List.find?_eq_none.mpr]
    · rfl
    · simp [marks, Punct.text]
      grind
  all_goals rfl

theorem mark?_stands {i : Nat} {cs : List Char} {mark : Punct} (stands : Stands text i cs)
    (known : mark? cs = some mark) :
    Stands text (i + mark.text.utf8ByteSize) (cs.drop mark.text.utf8ByteSize) := by
  have fits := List.find?_some known
  obtain ⟨behind, rfl⟩ := List.isPrefixOf_iff_prefix.mp fits
  have characters : mark.text.utf8ByteSize = mark.text.toList.length := by cases mark <;> rfl
  rw [characters, List.drop_left, ← characters, ← size_toList]
  exact stands.passed

theorem token_mirrors (enough : size text.toList < rounds) {c : Cursor} {i : Nat}
    (here : At text c i) :
    Mirrors text (Matches text i) (readToken c) (token text rounds i) := by
  have stands := here.stands
  obtain ⟨cs, p⟩ := c
  unfold readToken
  cases cs with
  | nil =>
      rw [token, stands.byte?_nil]
      exact ⟨_, rfl, rfl, rfl, here⟩
  | cons c rest =>
      obtain ⟨byte, found, shows⟩ := stands.byte?_cons
      simp only [token, found, shows _ ascii_letter, shows _ ascii_digit,
        shows _ (ascii_is '"' (by decide)), beq_iff_eq]
      by_cases letter : isLetter c = true
      · simp only [letter, ↓reduceIte]
        obtain ⟨ran, behind⟩ := stands.run ascii_name (stands.length_le.trans_lt enough)
        have name : (c :: rest).take ((c :: rest).takeWhile isNameChar).length =
            (c :: rest).takeWhile isNameChar :=
          (List.prefix_iff_eq_take.mp (List.takeWhile_prefix _)).symm
        rw [ran, pure_bind, stands.slice_to behind, pure_bind, name]
        exact ⟨_, rfl, rfl, rfl, here.advance behind⟩
      by_cases digit : c.isDigit = true
      · simp only [letter, digit, Bool.false_eq_true, ↓reduceIte]
        obtain ⟨n, scanned, behind, whole⟩ := number_stands enough stands
        rw [scanned]
        cases read : readNumber (c :: rest) with
        | error fault => exact here.fails _ _ _
        | ok found =>
            obtain ⟨token, size⟩ := found
            obtain rfl := whole token size read
            exact ⟨_, rfl, rfl, rfl, here.advance behind⟩
      by_cases quote : c = '"'
      · subst quote
        simp only [letter, digit, Bool.false_eq_true, ↓reduceIte]
        have inner : At text ⟨rest, p.after '"'⟩ (i + 1 + 0) := here.next
        rw [string, inner.stands.sliceFrom, pure_bind]
        refine (characters_mirrors here rest _ 0 inner).bind fun read scanned _ alike => ?_
        exact ⟨_, rfl, congrArg _ (congrArg _ alike.1), rfl, alike.2⟩
      simp only [letter, digit, quote, Bool.false_eq_true, ↓reduceIte]
      rw [stands.sliceFrom, pure_bind, ← mark?_eq]
      cases known : mark? (c :: rest) with
      | none => exact here.fails _ _ _
      | some mark =>
          exact ⟨_, rfl, rfl, rfl, here.advance (mark?_stands stands known)⟩

/-! Every token but the end of the text takes characters. -/

theorem readNumber_positive (c : Char) (rest : List Char) (digit : c.isDigit = true) (token : Token)
    (size : Nat) (read : readNumber (c :: rest) = .ok (token, size)) : 0 < size := by
  have decimal (read : readDecimal (c :: rest) = .ok (token, size)) : 0 < size := by
    rw [readDecimal_size _ token size read, decimalSize]
    simp only [List.takeWhile_cons, digit, ↓reduceIte, List.length_cons]
    omega
  cases rest with
  | nil => exact decimal ((readNumber_single c).symm.trans read)
  | cons d rest =>
      rw [readNumber_cons] at read
      split at read
      · rw [readHexadecimal_size _ token size read]
        exact Nat.succ_pos _
      · exact decimal read

theorem punct?_positive (cs : List Char) (mark : Punct) (size : Nat)
    (found : punct? cs = some (mark, size)) : 0 < size := by
  rw [← mark?_eq, Option.map_eq_some_iff] at found
  obtain ⟨mark, -, same⟩ := found
  obtain ⟨rfl, rfl⟩ := Prod.mk.inj same
  cases mark <;> decide

theorem readToken_takes (c : Char) (rest : List Char) (p : Position) (lexeme : Lexeme)
    (read : readToken ⟨c :: rest, p⟩ = .ok lexeme) : lexeme.after.rest.length ≤ rest.length := by
  have advanced (size : Nat) (positive : 0 < size) :
      (Cursor.advance size ⟨c :: rest, p⟩).rest.length ≤ rest.length := by
    simp only [Cursor.advance_eq, List.length_drop, List.length_cons]
    omega
  unfold readToken at read
  simp only at read
  split at read
  · next letter =>
      obtain rfl := Except.ok.inj read
      refine advanced _ ?_
      simp [isLetter_nameChar c letter]
  split at read
  · next digit =>
      cases number : readNumber (c :: rest) with
      | error fault => simp [number] at read
      | ok found =>
          simp only [number] at read
          obtain rfl := Except.ok.inj read
          exact advanced _ (readNumber_positive c rest digit _ _ number)
  split at read
  · obtain ⟨⟨text, after⟩, inside, same⟩ := (except_bind_ok_iff _ _ _).mp read
    obtain rfl := Except.ok.inj same
    exact Nat.le_of_lt (readString_shorter _ _ _ _ inside)
  · cases mark : punct? (c :: rest) with
    | none => simp [mark] at read
    | some found =>
        simp only [mark] at read
        obtain rfl := Except.ok.inj read
        exact advanced _ (punct?_positive _ _ _ mark)

def tokenLeast : Token → Nat
  | .endOfText => 0
  | _ => 1

theorem readToken_least (c : Cursor) (lexeme : Lexeme) (read : readToken c = .ok lexeme) :
    lexeme.after.rest.length + tokenLeast lexeme.token ≤ c.rest.length := by
  obtain ⟨cs, p⟩ := c
  cases cs with
  | nil =>
      obtain rfl := Except.ok.inj read
      exact Nat.le_refl _
  | cons c rest =>
      have takes := readToken_takes c rest p lexeme read
      have one : tokenLeast lexeme.token ≤ 1 := by
        unfold tokenLeast
        split <;> decide
      exact Nat.add_le_add takes one

end SimBus.Surface.Source
