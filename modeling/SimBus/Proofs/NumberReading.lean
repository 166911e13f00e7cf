import SimBus.Surface.Token
/-!
Reading numbers. The digits of a number end where a text goes on with anything else, and then
a whole number is read as the number that it is, or refused if it is too great.
-/

namespace SimBus.Surface

theorem fraction?_cons (c : Char) (rest : List Char) : fraction? (c :: rest) =
    if c = '.' ∧ rest.takeWhile Char.isDigit ≠ [] then some (rest.takeWhile Char.isDigit)
    else none := by
  by_cases point : c = '.'
  · subst point
    cases rest with
    | nil => rfl
    | cons d rest => cases digit : d.isDigit <;> simp [fraction?, digit]
  · rw [if_neg (fun both => point both.1), fraction?]
    rintro d more same
    exact point (List.cons.inj same).1

def fractionSize : Option (List Char) → Nat
  | some digits => digits.length + 1
  | none => 0

theorem fraction?_size (text : List Char) : fractionSize (fraction? text) ≤ text.length := by
  cases text with
  | nil => exact Nat.le_refl 0
  | cons c rest =>
      rw [fraction?_cons]
      split
      · exact Nat.succ_le_succ (List.takeWhile_prefix _).length_le
      · exact Nat.zero_le _

def splitSign : List Char → List Char × List Char
  | '+' :: rest => (['+'], rest)
  | '-' :: rest => (['-'], rest)
  | rest => ([], rest)

theorem power?_cons (c : Char) (rest : List Char) : power? (c :: rest) =
    if (c = 'e' ∨ c = 'E') ∧ (splitSign rest).2.takeWhile Char.isDigit ≠ [] then
      some ((splitSign rest).1, (splitSign rest).2.takeWhile Char.isDigit)
    else none := by
  cases rest with
  | nil => simp [power?, splitSign]
  | cons d rest =>
      by_cases plus : d = '+'
      · subst plus
        cases digits : rest.takeWhile Char.isDigit <;> simp [power?, splitSign, digits]
      by_cases minus : d = '-'
      · subst minus
        cases digits : rest.takeWhile Char.isDigit <;> simp [power?, splitSign, digits]
      cases digits : (d :: rest).takeWhile Char.isDigit <;>
        simp [power?, splitSign, plus, minus, digits]

def powerSize : Option (List Char × List Char) → Nat
  | some (sign, digits) => 1 + sign.length + digits.length
  | none => 0

theorem power?_size (text : List Char) : powerSize (power? text) ≤ text.length := by
  cases text with
  | nil => exact Nat.le_refl 0
  | cons c rest =>
      have short := (List.takeWhile_prefix (l := (splitSign rest).2) Char.isDigit).length_le
      have whole : (splitSign rest).1.length + (splitSign rest).2.length = rest.length := by
        unfold splitSign
        split <;> simp [Nat.add_comm]
      rw [power?_cons]
      split
      · simp only [powerSize, List.length_cons]
        omega
      · exact Nat.zero_le _

def decimal (whole : List Char) (fraction : Option (List Char))
    (power : Option (List Char × List Char)) : Except (String × String) (Token × Nat) :=
  match fraction, power with
  | none, none =>
      if Digits.number 10 whole < integerLimit then
        .ok (.integer (Digits.number 10 whole), whole.length)
      else .error ("an integer", "'" ++ String.ofList whole ++ "'")
  | _, _ =>
      let digits := fraction.getD []
      let (exponent, powerSize) : Int × Nat := match power with
        | some (sign, digits) =>
            let n : Int := Digits.number 10 digits
            (if sign = ['-'] then -n else n, 1 + sign.length + digits.length)
        | none => (0, 0)
      let exponent := exponent - digits.length
      .ok (.double (Float.ofScientific (Digits.number 10 (whole ++ digits))
          (decide (exponent < 0)) exponent.natAbs),
        whole.length + fractionSize fraction + powerSize)

theorem readDecimal_eq (text : List Char) :
    let whole := text.takeWhile Char.isDigit
    let rest := text.drop whole.length
    readDecimal text =
      decimal whole (fraction? rest) (power? (rest.drop (fractionSize (fraction? rest)))) := rfl

theorem readDecimal_length (text : List Char) (token : Token) (size : Nat)
    (read : readDecimal text = .ok (token, size)) : size ≤ text.length := by
  have whole := (List.takeWhile_prefix (l := text) Char.isDigit).length_le
  have left : (text.drop (text.takeWhile Char.isDigit).length).length =
      text.length - (text.takeWhile Char.isDigit).length := List.length_drop
  rw [readDecimal_eq] at read
  generalize text.drop (text.takeWhile Char.isDigit).length = rest at read left
  have point := fraction?_size rest
  generalize fraction? rest = fraction at read point
  have short := power?_size (rest.drop (fractionSize fraction))
  rw [List.length_drop] at short
  generalize power? (rest.drop (fractionSize fraction)) = power at read short
  unfold decimal at read
  split at read
  · split at read
    · obtain ⟨-, rfl⟩ := Prod.mk.inj (Except.ok.inj read)
      exact whole
    · cases read
  · obtain ⟨-, rfl⟩ := Prod.mk.inj (Except.ok.inj read)
    cases power with
    | none =>
        dsimp only
        omega
    | some found =>
        obtain ⟨sign, digits⟩ := found
        simp only [powerSize] at short
        dsimp only
        omega

theorem readHexadecimal_length (digits : List Char) (token : Token) (size : Nat)
    (read : readHexadecimal digits = .ok (token, size)) : size ≤ digits.length + 2 := by
  unfold readHexadecimal at read
  simp only at read
  split at read
  · cases read
  · obtain ⟨-, rfl⟩ := Prod.mk.inj (Except.ok.inj read)
    exact Nat.add_le_add_right (List.takeWhile_prefix _).length_le 2

theorem readNumber_cons (c d : Char) (rest : List Char) : readNumber (c :: d :: rest) =
    if c = '0' ∧ (d = 'x' ∨ d = 'X') then readHexadecimal rest
    else readDecimal (c :: d :: rest) := by
  unfold readNumber
  split
  · next same =>
      obtain ⟨rfl, second⟩ := List.cons.inj same
      obtain ⟨rfl, rfl⟩ := List.cons.inj second
      rfl
  · next same =>
      obtain ⟨rfl, second⟩ := List.cons.inj same
      obtain ⟨rfl, rfl⟩ := List.cons.inj second
      rfl
  · next small capital =>
      rw [if_neg]
      rintro ⟨rfl, rfl | rfl⟩
      · exact small _ rfl
      · exact capital _ rfl

theorem readNumber_single (c : Char) : readNumber [c] = readDecimal [c] := by
  rw [readNumber] <;> simp

theorem readNumber_length (text : List Char) (token : Token) (size : Nat)
    (read : readNumber text = .ok (token, size)) : size ≤ text.length := by
  unfold readNumber at read
  split at read
  · exact readHexadecimal_length _ token size read
  · exact readHexadecimal_length _ token size read
  · exact readDecimal_length _ token size read

theorem readNumber_noMark (text : List Char) (mark : Punct) (size : Nat) :
    readNumber text ≠ .ok (.punct mark, size) := by
  have noDecimal (text : List Char) : readDecimal text ≠ .ok (.punct mark, size) := by
    intro read
    rw [readDecimal_eq] at read
    unfold decimal at read
    split at read
    · split at read <;> cases read
    · cases read
  have noHexadecimal (text : List Char) : readHexadecimal text ≠ .ok (.punct mark, size) := by
    intro read
    simp only [readHexadecimal] at read
    split at read <;> cases read
  unfold readNumber
  split
  · exact noHexadecimal _
  · exact noHexadecimal _
  · exact noDecimal _

/-! Whole numbers. -/

/-- A whole number as it may be written: in decimal digits, or behind `0x` or `0X` in
hexadecimal ones of either case. -/
inductive Literal where
  | decimal (digits : List Char) (some : digits ≠ []) (decimal : ∀ c ∈ digits, c.isDigit = true)
  | hexadecimal (capital : Bool) (digits : List Char) (some : digits ≠ [])
      (hexadecimal : ∀ c ∈ digits, Digits.isHexadecimal c = true)

namespace Literal

def text : Literal → List Char
  | decimal digits _ _ => digits
  | hexadecimal capital digits _ _ => '0' :: (if capital then 'X' else 'x') :: digits

def value : Literal → Nat
  | decimal digits _ _ => Digits.number 10 digits
  | hexadecimal _ digits _ _ => Digits.number 16 digits

def fault : Literal → String × String
  | decimal digits _ _ => ("an integer", "'" ++ String.ofList digits ++ "'")
  | hexadecimal _ _ _ _ => ("a hexadecimal integer", "invalid digits")

def read (place : Position) (literal : Literal) : Except GrammarError Nat :=
  if literal.value < integerLimit then .ok literal.value
  else .error ⟨place, literal.fault.1, literal.fault.2⟩

end Literal

/-- No number goes on here. -/
def Ends (behind : List Char) : Prop :=
  ∀ c, behind.head? = some c → isNameChar c = false ∧ c ≠ '.'

theorem takeWhile_ends (p : Char → Bool) (digits behind : List Char)
    (inside : ∀ c ∈ digits, p c = true) (outside : ∀ c, isNameChar c = false → p c = false)
    (ends : Ends behind) : (digits ++ behind).takeWhile p = digits := by
  rw [List.takeWhile_append_of_pos inside]
  cases behind with
  | nil => simp
  | cons c rest => simp [outside c (ends c rfl).1]

theorem isDigit_isNameChar (c : Char) (other : isNameChar c = false) : c.isDigit = false := by
  simp only [isNameChar, Char.isAlphanum, Bool.or_eq_false_iff] at other
  exact other.1.2

theorem isHexadecimal_isNameChar (c : Char) (other : isNameChar c = false) :
    Digits.isHexadecimal c = false := by
  have small : ∀ n < 103, isNameChar (Char.ofNat n) = false →
      Digits.isHexadecimal (Char.ofNat n) = false := by decide
  by_cases most : c.toNat < 103
  · have same := small c.toNat most
    rw [Char.ofNat_toNat] at same
    exact same other
  · have great (d : Char) (least : d.toNat < 103) : ¬ c ≤ d := fun less =>
      most (Nat.lt_of_le_of_lt (show c.toNat ≤ d.toNat from less) least)
    simp [Digits.isHexadecimal, isDigit_isNameChar c other, great 'f' (by decide),
      great 'F' (by decide)]

theorem fraction?_ends (behind : List Char) (ends : Ends behind) : fraction? behind = none := by
  cases behind with
  | nil => rfl
  | cons c rest => rw [fraction?_cons, if_neg fun both => (ends c rfl).2 both.1]

theorem power?_ends (behind : List Char) (ends : Ends behind) : power? behind = none := by
  cases behind with
  | nil => rfl
  | cons c rest =>
      have other := (ends c rfl).1
      rw [power?_cons, if_neg]
      rintro ⟨rfl | rfl, -⟩ <;> cases other

theorem readDecimal_ends (digits behind : List Char) (decimal : ∀ c ∈ digits, c.isDigit = true)
    (ends : Ends behind) : readDecimal (digits ++ behind) =
      if Digits.number 10 digits < integerLimit then
        .ok (.integer (Digits.number 10 digits), digits.length)
      else .error ("an integer", "'" ++ String.ofList digits ++ "'") := by
  have whole := takeWhile_ends Char.isDigit digits behind decimal isDigit_isNameChar ends
  simp only [readDecimal, whole, List.drop_left, fraction?_ends behind ends, List.drop_zero,
    power?_ends behind ends]

theorem readNumber_literal (literal : Literal) (behind : List Char) (ends : Ends behind) :
    readNumber (literal.text ++ behind) =
      if literal.value < integerLimit then .ok (.integer literal.value, literal.text.length)
      else .error literal.fault := by
  cases literal with
  | decimal digits some decimal =>
      rw [Literal.text, Literal.value, Literal.fault, ← readDecimal_ends digits behind decimal ends]
      match digits, some with
      | [c], _ =>
          cases behind with
          | nil => exact readNumber_single c
          | cons d rest =>
              have other := (ends d rfl).1
              rw [List.singleton_append, readNumber_cons, if_neg]
              rintro ⟨-, rfl | rfl⟩ <;> cases other
      | c :: d :: digits, _ =>
          have digit := decimal d (by simp)
          rw [List.cons_append, List.cons_append, readNumber_cons, if_neg]
          rintro ⟨-, rfl | rfl⟩ <;> cases digit
  | hexadecimal capital digits some hexadecimal =>
      have whole := takeWhile_ends Digits.isHexadecimal digits behind hexadecimal
        isHexadecimal_isNameChar ends
      have read : readNumber
          ((Literal.hexadecimal capital digits some hexadecimal).text ++ behind) =
            readHexadecimal (digits ++ behind) := by
        cases capital <;> rfl
      have number : digits.isEmpty = false := by simpa using some
      rw [read, readHexadecimal]
      simp only [whole, number, Bool.false_or, decide_eq_true_eq, ← Nat.not_lt, ite_not]
      rfl

end SimBus.Surface
