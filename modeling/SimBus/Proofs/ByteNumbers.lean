import SimBus.Proofs.SourcePlaces
/-!
Numbers read byte by byte. Bytes are looked at one at a time, and a byte below 128 is a
character on its own; a number is the slice between the offsets where the scan began and
where it came to.
-/

namespace SimBus.Surface.Source

section

variable (text : String)

/-- Behind the characters of this kind. -/
def run (kind : Char → Bool) : (rounds : Nat) → (i : Nat) → Scan Nat
  | 0, _ => throw .exhausted
  | rounds + 1, i => if has text kind i then run kind rounds (i + 1) else pure i

variable (rounds : Nat)

structure Span where
  token : Token
  start : Nat
  stop : Nat

/-- What a number comes to that has been read off the text up to an offset. -/
def spanOf (start stop : Nat) : Except (String × String) (Token × Nat) → Scan Span
  | .ok (token, _) => pure ⟨token, start, stop⟩
  | .error (expected, found) => syntaxError text start expected found

def hexadecimal (start : Nat) : Scan Span := do
  let stop ← run text Digits.isHexadecimal rounds (start + 2)
  let digits ← slice text (start + 2) stop
  spanOf text start stop (readHexadecimal digits)

def fractionEnd (i : Nat) : Scan Nat :=
  if has text (· == '.') i && has text Char.isDigit (i + 1) then
    run text Char.isDigit rounds (i + 1)
  else pure i

def powerEnd (i : Nat) : Scan Nat :=
  if has text (fun c => c == 'e' || c == 'E') i then
    let sign := i + 1
    let digits := if has text (fun c => c == '+' || c == '-') sign then sign + 1 else sign
    if has text Char.isDigit digits then run text Char.isDigit rounds digits else pure i
  else pure i

def decimal (start : Nat) : Scan Span := do
  let whole ← run text Char.isDigit rounds start
  let stop ← powerEnd text rounds (← fractionEnd text rounds whole)
  let number ← slice text start stop
  spanOf text start stop (readDecimal number)

def number (start : Nat) : Scan Span := do
  let tail ← sliceFrom text start
  if ['0', 'x'].isPrefixOf tail || ['0', 'X'].isPrefixOf tail then hexadecimal text rounds start
  else decimal text rounds start

end

/-! Kinds of characters. -/

theorem ascii_digit : Ascii Char.isDigit := by
  intro c is
  simp only [Char.isDigit, Bool.and_eq_true, decide_eq_true_eq, UInt32.le_iff_toNat_le] at is
  exact Nat.lt_of_le_of_lt is.2 (by decide)

theorem ascii_is (d : Char) (low : d.toNat < 128) : Ascii (· == d) := by
  intro c is
  rwa [eq_of_beq is]

theorem ascii_or {first second : Char → Bool} (ascii : Ascii first) (ascii' : Ascii second) :
    Ascii fun c => first c || second c := by
  intro c is
  rcases Bool.or_eq_true _ _ |>.mp is with is | is
  · exact ascii c is
  · exact ascii' c is

theorem ascii_name : Ascii isNameChar := by
  have upper : Ascii Char.isUpper := by
    intro c is
    simp only [Char.isUpper, decide_eq_true_eq, UInt32.le_iff_toNat_le] at is
    exact Nat.lt_of_le_of_lt is.2 (by decide)
  have lower : Ascii Char.isLower := by
    intro c is
    simp only [Char.isLower, Bool.and_eq_true, decide_eq_true_eq, UInt32.le_iff_toNat_le] at is
    exact Nat.lt_of_le_of_lt is.2 (by decide)
  exact ascii_or (ascii_or (ascii_or upper lower) ascii_digit) (ascii_is '_' (by decide))

theorem ascii_letter : Ascii isLetter := fun c is => ascii_name c (isLetter_nameChar c is)

theorem ascii_hexadecimal : Ascii Digits.isHexadecimal := by
  intro c is
  refine ascii_name c (Bool.eq_true_of_not_eq_false fun other => ?_)
  rw [isHexadecimal_isNameChar c other] at is
  cases is

variable {text : String} {rounds : Nat}

/-! What numbers come to. -/

theorem Stands.run {kind : Char → Bool} {i : Nat} {cs : List Char} (stands : Stands text i cs)
    (ascii : Ascii kind) (enough : cs.length < rounds) :
    Source.run text kind rounds i = pure (i + (cs.takeWhile kind).length) ∧
      Stands text (i + (cs.takeWhile kind).length) (cs.drop (cs.takeWhile kind).length) := by
  induction rounds generalizing i cs with
  | zero => cases enough
  | succ rounds ih =>
      rw [Source.run, stands.has ascii]
      cases cs with
      | nil => exact ⟨rfl, stands⟩
      | cons c rest =>
          rw [List.takeWhile_cons]
          cases is : kind c with
          | false => simpa [is] using stands
          | true =>
              obtain ⟨ran, behind⟩ :=
                ih (stands.nextAscii (ascii c is)) (Nat.lt_of_succ_lt_succ enough)
              rw [Nat.add_right_comm] at ran behind
              simpa [is, ← Nat.add_assoc] using And.intro ran behind

theorem takeWhile_eq_nil_iff (kind : Char → Bool) (cs : List Char) :
    cs.takeWhile kind = [] ↔ cs.head?.any kind = false := by
  cases cs with
  | nil => simp
  | cons c rest => cases is : kind c <;> simp [is]

theorem splitSign_stands {i : Nat} {cs : List Char} (stands : Stands text i cs) :
    (if has text (fun c => c == '+' || c == '-') i then i + 1 else i) =
        i + (splitSign cs).1.length ∧
      Stands text (i + (splitSign cs).1.length) (splitSign cs).2 ∧
      cs = (splitSign cs).1 ++ (splitSign cs).2 := by
  rw [stands.has (ascii_or (ascii_is '+' (by decide)) (ascii_is '-' (by decide)))]
  cases cs with
  | nil => exact ⟨rfl, stands, rfl⟩
  | cons c rest =>
      by_cases plus : c = '+'
      · subst plus
        exact ⟨rfl, stands.nextAscii (by decide), rfl⟩
      by_cases minus : c = '-'
      · subst minus
        exact ⟨rfl, stands.nextAscii (by decide), rfl⟩
      simpa [splitSign, plus, minus] using stands

/-! A number does not depend on what stands behind it. -/

theorem takeWhile_take (kind : Char → Bool) (cs : List Char) (n : Nat)
    (reaches : (cs.takeWhile kind).length ≤ n) :
    (cs.take n).takeWhile kind = cs.takeWhile kind := by
  rw [← List.take_takeWhile, List.take_of_length_le reaches]

theorem fraction?_take (cs : List Char) (n : Nat) (reaches : fractionSize (fraction? cs) ≤ n) :
    fraction? (cs.take n) = fraction? cs := by
  cases cs with
  | nil => rw [List.take_nil]
  | cons c rest =>
      by_cases both : c = '.' ∧ rest.takeWhile Char.isDigit ≠ []
      · rw [fraction?_cons, if_pos both] at reaches ⊢
        obtain ⟨m, rfl⟩ := Nat.exists_eq_add_of_lt (Nat.lt_of_lt_of_le (Nat.succ_pos _) reaches)
        have enough : (rest.takeWhile Char.isDigit).length ≤ 0 + m := Nat.le_of_succ_le_succ reaches
        rw [List.take_succ_cons, fraction?_cons, takeWhile_take _ _ _ enough, if_pos both]
      · rw [fraction?_cons, if_neg both]
        cases n with
        | zero => rfl
        | succ n =>
            rw [List.take_succ_cons, fraction?_cons, ← List.take_takeWhile, if_neg]
            rintro ⟨point, some⟩
            exact both ⟨point, fun none => some (by rw [none, List.take_nil])⟩

theorem splitSign_take (cs : List Char) (n : Nat) :
    splitSign (cs.take ((splitSign cs).1.length + n)) =
      ((splitSign cs).1, (splitSign cs).2.take n) := by
  cases cs with
  | nil => simp [splitSign]
  | cons c rest =>
      by_cases plus : c = '+'
      · subst plus
        simp [splitSign, Nat.add_comm 1]
      by_cases minus : c = '-'
      · subst minus
        simp [splitSign, Nat.add_comm 1]
      cases n <;> simp [splitSign, plus, minus]

theorem power?_take (cs : List Char) : power? (cs.take (powerSize (power? cs))) = power? cs := by
  cases cs with
  | nil => rw [List.take_nil]
  | cons c rest =>
      by_cases both : (c = 'e' ∨ c = 'E') ∧ (splitSign rest).2.takeWhile Char.isDigit ≠ []
      · rw [power?_cons, if_pos both, powerSize, Nat.add_assoc, Nat.add_comm 1, List.take_succ_cons,
          power?_cons, splitSign_take, takeWhile_take _ _ _ (Nat.le_refl _), if_pos both]
      · rw [power?_cons, if_neg both]
        rfl

def decimalSize (cs : List Char) : Nat :=
  let whole := (cs.takeWhile Char.isDigit).length
  let fraction := fractionSize (fraction? (cs.drop whole))
  whole + fraction + powerSize (power? ((cs.drop whole).drop fraction))

theorem readDecimal_take (cs : List Char) :
    readDecimal (cs.take (decimalSize cs)) = readDecimal cs := by
  have reaches : (cs.takeWhile Char.isDigit).length ≤ decimalSize cs := by
    simp only [decimalSize]
    omega
  rw [readDecimal_eq, readDecimal_eq, takeWhile_take _ _ _ reaches]
  unfold decimalSize
  simp only
  generalize (cs.takeWhile Char.isDigit).length = whole
  generalize cs.takeWhile Char.isDigit = digits
  have left (n : Nat) : (cs.take (whole + n)).drop whole = (cs.drop whole).take n := by
    rw [List.drop_take, Nat.add_sub_cancel_left]
  rw [Nat.add_assoc, left]
  generalize cs.drop whole = rest
  have left' (n : Nat) : (rest.take (fractionSize (fraction? rest) + n)).drop
      (fractionSize (fraction? rest)) = (rest.drop (fractionSize (fraction? rest))).take n := by
    rw [List.drop_take, Nat.add_sub_cancel_left]
  rw [fraction?_take _ _ (Nat.le_add_right _ _), left', power?_take]

theorem readDecimal_size (cs : List Char) (token : Token) (size : Nat)
    (read : readDecimal cs = .ok (token, size)) : size = decimalSize cs := by
  rw [readDecimal_eq] at read
  unfold decimalSize
  simp only
  generalize fraction? (cs.drop (cs.takeWhile Char.isDigit).length) = fraction at read ⊢
  generalize power? _ = power at read ⊢
  unfold Surface.decimal at read
  split at read
  · split at read
    · exact (Prod.mk.inj (Except.ok.inj read)).2.symm
    · cases read
  · obtain ⟨-, rfl⟩ := Prod.mk.inj (Except.ok.inj read)
    cases power <;> rfl

theorem readHexadecimal_size (rest : List Char) (token : Token) (size : Nat)
    (read : readHexadecimal rest = .ok (token, size)) :
    size = (rest.takeWhile Digits.isHexadecimal).length + 2 := by
  unfold readHexadecimal at read
  simp only at read
  split at read
  · cases read
  · exact (Prod.mk.inj (Except.ok.inj read)).2.symm

theorem isPrefixOf_pair_iff (a b c d : Char) (rest : List Char) :
    [a, b].isPrefixOf (c :: d :: rest) = true ↔ c = a ∧ d = b := by
  simp only [List.isPrefixOf, Bool.and_true, Bool.and_eq_true, beq_iff_eq]
  exact and_congr eq_comm eq_comm

/-! Every number is scanned as it is read. -/

section

variable (enough : size text.toList < rounds)
include enough

theorem fractionEnd_stands {i : Nat} {cs : List Char} (stands : Stands text i cs) :
    fractionEnd text rounds i = pure (i + fractionSize (fraction? cs)) ∧
      Stands text (i + fractionSize (fraction? cs)) (cs.drop (fractionSize (fraction? cs))) := by
  rw [fractionEnd, stands.has (ascii_is '.' (by decide))]
  cases cs with
  | nil => exact ⟨rfl, stands⟩
  | cons c rest =>
      by_cases point : c = '.'
      · subst point
        have inner := stands.nextAscii (by decide)
        obtain ⟨ran, behind⟩ := inner.run ascii_digit (inner.length_le.trans_lt enough)
        rw [Nat.add_right_comm] at ran behind
        rw [inner.has ascii_digit]
        cases first : rest.head?.any Char.isDigit with
        | false =>
            have none : rest.takeWhile Char.isDigit = [] := (takeWhile_eq_nil_iff _ _).mpr first
            have read : fraction? ('.' :: rest) = .none := by
              rw [fraction?_cons, if_neg fun both => both.2 none]
            rw [read]
            exact ⟨rfl, stands⟩
        | true =>
            have some : rest.takeWhile Char.isDigit ≠ [] := fun none => by
              rw [(takeWhile_eq_nil_iff _ _).mp none] at first
              cases first
            have read : fraction? ('.' :: rest) = .some (rest.takeWhile Char.isDigit) := by
              rw [fraction?_cons, if_pos ⟨rfl, some⟩]
            rw [read]
            exact ⟨ran, behind⟩
      · have read : fraction? (c :: rest) = none := by
          rw [fraction?_cons, if_neg fun both => point both.1]
        have other : (c == '.') = false := beq_eq_false_iff_ne.mpr point
        rw [read, List.head?_cons, Option.any_some, other]
        exact ⟨rfl, stands⟩

theorem powerEnd_stands {i : Nat} {cs : List Char} (stands : Stands text i cs) :
    powerEnd text rounds i = pure (i + powerSize (power? cs)) ∧
      Stands text (i + powerSize (power? cs)) (cs.drop (powerSize (power? cs))) := by
  rw [powerEnd, stands.has (ascii_or (ascii_is 'e' (by decide)) (ascii_is 'E' (by decide)))]
  cases cs with
  | nil => exact ⟨rfl, stands⟩
  | cons c rest =>
      by_cases letter : c = 'e' ∨ c = 'E'
      · have begins : (c == 'e' || c == 'E') = true := by simpa using letter
        have inner : Stands text (i + 1) rest :=
          stands.nextAscii (by rcases letter with rfl | rfl <;> decide)
        obtain ⟨signed, digits, split⟩ := splitSign_stands inner
        obtain ⟨ran, behind⟩ := digits.run ascii_digit (digits.length_le.trans_lt enough)
        rw [List.head?_cons, Option.any_some, if_pos begins]
        simp only [signed]
        rw [digits.has ascii_digit]
        cases first : (splitSign rest).2.head?.any Char.isDigit with
        | false =>
            have none : (splitSign rest).2.takeWhile Char.isDigit = [] :=
              (takeWhile_eq_nil_iff _ _).mpr first
            have read : power? (c :: rest) = .none := by
              rw [power?_cons, if_neg fun both => both.2 none]
            rw [read]
            exact ⟨rfl, stands⟩
        | true =>
            have some : (splitSign rest).2.takeWhile Char.isDigit ≠ [] := fun none => by
              rw [(takeWhile_eq_nil_iff _ _).mp none] at first
              cases first
            have read : power? (c :: rest) =
                .some ((splitSign rest).1, (splitSign rest).2.takeWhile Char.isDigit) := by
              rw [power?_cons, if_pos ⟨letter, some⟩]
            rw [read]
            generalize splitSign rest = parts at split ran behind
            obtain ⟨sign, tail⟩ := parts
            simp only at split ran behind
            subst split
            have place (n : Nat) : i + (1 + sign.length + n) = i + 1 + sign.length + n := by omega
            have left (n : Nat) :
                (c :: (sign ++ tail)).drop (1 + sign.length + n) = tail.drop n := by
              rw [Nat.add_assoc, Nat.add_comm 1, List.drop_succ_cons, List.drop_length_add_append]
            simp only [powerSize, place, left]
            exact ⟨ran, behind⟩
      · have read : power? (c :: rest) = none := by
          rw [power?_cons, if_neg fun both => letter both.1]
        have other : (c == 'e' || c == 'E') = false := by simpa using letter
        rw [read, List.head?_cons, Option.any_some, other]
        exact ⟨rfl, stands⟩

theorem decimal_stands {i : Nat} {cs : List Char} (stands : Stands text i cs) :
    decimal text rounds i = spanOf text i (i + decimalSize cs) (readDecimal cs) ∧
      Stands text (i + decimalSize cs) (cs.drop (decimalSize cs)) := by
  obtain ⟨ran, behind⟩ := stands.run ascii_digit (stands.length_le.trans_lt enough)
  obtain ⟨ran', behind'⟩ := fractionEnd_stands enough behind
  obtain ⟨ran'', behind''⟩ := powerEnd_stands enough behind'
  have there : Stands text (i + decimalSize cs) (cs.drop (decimalSize cs)) := by
    rw [List.drop_drop, List.drop_drop] at behind''
    simpa [decimalSize, Nat.add_assoc] using behind''
  refine ⟨?_, there⟩
  rw [decimal, ran, pure_bind, ran', pure_bind, ran'', pure_bind]
  have same : i + (cs.takeWhile Char.isDigit).length +
      fractionSize (fraction? (cs.drop (cs.takeWhile Char.isDigit).length)) +
      powerSize (power? ((cs.drop (cs.takeWhile Char.isDigit).length).drop
        (fractionSize (fraction? (cs.drop (cs.takeWhile Char.isDigit).length))))) =
      i + decimalSize cs := by
    simp only [decimalSize, Nat.add_assoc]
  rw [same, stands.slice_to there, pure_bind, readDecimal_take]

theorem hexadecimal_stands {i : Nat} {rest : List Char} (stands : Stands text (i + 2) rest) :
    hexadecimal text rounds i = spanOf text i (i + 2 + (rest.takeWhile Digits.isHexadecimal).length)
        (readHexadecimal rest) ∧
      Stands text (i + 2 + (rest.takeWhile Digits.isHexadecimal).length)
        (rest.drop (rest.takeWhile Digits.isHexadecimal).length) := by
  obtain ⟨ran, behind⟩ := stands.run ascii_hexadecimal (stands.length_le.trans_lt enough)
  have digits : rest.take (rest.takeWhile Digits.isHexadecimal).length =
      rest.takeWhile Digits.isHexadecimal :=
    List.prefix_iff_eq_take.mp (List.takeWhile_prefix _) |>.symm
  refine ⟨?_, behind⟩
  rw [hexadecimal, ran, pure_bind, stands.slice_to behind, pure_bind, digits, readHexadecimal,
    readHexadecimal, List.takeWhile_takeWhile]
  simp

theorem number_stands {i : Nat} {cs : List Char} (stands : Stands text i cs) :
    ∃ n, number text rounds i = spanOf text i (i + n) (readNumber cs) ∧
      Stands text (i + n) (cs.drop n) ∧
      ∀ token size, readNumber cs = .ok (token, size) → size = n := by
  have plain (read : readNumber cs = readDecimal cs)
      (scanned : number text rounds i = decimal text rounds i) :
      ∃ n, number text rounds i = spanOf text i (i + n) (readNumber cs) ∧
        Stands text (i + n) (cs.drop n) ∧
        ∀ token size, readNumber cs = .ok (token, size) → size = n := by
    obtain ⟨same, behind⟩ := decimal_stands enough stands
    exact ⟨decimalSize cs, by rw [scanned, same, read], behind,
      fun token size found => readDecimal_size cs token size (read ▸ found)⟩
  unfold number at plain ⊢
  rw [stands.sliceFrom, pure_bind] at plain ⊢
  match cs with
  | [] => exact plain rfl rfl
  | [c] => exact plain (readNumber_single c) (by simp [List.isPrefixOf])
  | c :: d :: rest =>
      rw [readNumber_cons] at plain ⊢
      by_cases based : c = '0' ∧ (d = 'x' ∨ d = 'X')
      · have inner : Stands text (i + 2) rest :=
          (stands.nextAscii (by rw [based.1]; decide)).nextAscii
            (by rcases based.2 with rfl | rfl <;> decide)
        obtain ⟨same, behind⟩ := hexadecimal_stands enough inner
        rw [if_pos based, if_pos]
        · refine ⟨(rest.takeWhile Digits.isHexadecimal).length + 2, ?_, ?_, ?_⟩
          · rw [same, Nat.add_assoc i, Nat.add_comm 2]
          · rwa [Nat.add_assoc i, Nat.add_comm 2] at behind
          · exact fun token size found => readHexadecimal_size rest token size found
        · rw [Bool.or_eq_true, isPrefixOf_pair_iff, isPrefixOf_pair_iff, ← and_or_left]
          exact based
      · refine plain (if_neg based) (if_neg fun marked => based ?_)
        rw [Bool.or_eq_true, isPrefixOf_pair_iff, isPrefixOf_pair_iff, ← and_or_left] at marked
        exact marked

end

end SimBus.Surface.Source
