import SimBus.Proofs.ByteTokens
import SimBus.Proofs.SignatureReading
/-!
Signatures read byte by byte. A stray byte is refused on its own, so a scan that has
gone into the middle of a character asks for nothing any more.
-/

namespace SimBus.Surface.Source

section

variable (text : String)

def members (one : Nat → ExceptT String Scan (Ty × Nat)) :
    (more : Nat) → (i : Nat) → ExceptT String Scan (List Ty × Nat)
  | 0, _ => (throw .exhausted : Scan _)
  | more + 1, i =>
      match byte? text i with
      | none => throw "unterminated tuple type"
      | some byte =>
          if Char.ofNat byte.toNat = ')' then pure ([], i + 1)
          else do
            let (member, behind) ← one i
            let (members, behind) ← members one more behind
            pure (member :: members, behind)

variable (rounds : Nat)

/-- The signature at an offset and the offset behind it, or why there is none. -/
def signature : (depth : Nat) → (i : Nat) → ExceptT String Scan (Ty × Nat)
  | 0, _ => (throw .exhausted : Scan _)
  | depth + 1, i =>
      match byte? text i with
      | none => throw "unexpected end of signature"
      | some byte =>
          let letter := Char.ofNat byte.toNat
          match Ty.ofLetter? letter with
          | some ty => pure (ty, i + 1)
          | none =>
              if letter = 'a' then
                if has text (· == '{') (i + 1) then do
                  let (key, behind) ← signature depth (i + 2)
                  if key.isBasic then
                    let (value, behind) ← signature depth behind
                    if has text (· == '}') behind then pure (.dict key value, behind + 1)
                    else throw "unterminated dictionary entry type"
                  else throw ("dictionary key type '" ++ key.signature ++ "' is not basic")
                else do
                  let (element, behind) ← signature depth (i + 1)
                  pure (.array element, behind)
              else if letter = '(' then do
                let (inner, behind) ← members text (signature depth) rounds (i + 1)
                pure (.tuple inner, behind)
              else throw ("unknown type code '" ++ String.singleton letter ++ "'")

end

/-! The first byte of a character. -/

theorem toList_data (array : ByteArray) : array.toList = array.data.toList := by
  have loop (left i : Nat) (read : List UInt8) (sized : array.size - i = left) :
      ByteArray.toList.loop array i read = read.reverse ++ array.data.toList.drop i := by
    induction left generalizing i read with
    | zero =>
        rw [ByteArray.toList.loop.eq_1, if_neg (by omega), List.drop_of_length_le, List.append_nil]
        rw [Array.length_toList]
        exact Nat.sub_eq_zero_iff_le.mp sized
    | succ left ih =>
        have inside : i < array.data.toList.length := by
          rw [Array.length_toList]
          exact Nat.lt_of_sub_eq_succ sized
        have got : array.get! i = array.data.toList[i] := by
          show array.data[i]! = _
          rw [getElem!_pos array.data i (by simpa using inside)]
          simp
        rw [ByteArray.toList.loop.eq_1, if_pos (by omega), ih _ _ (by omega), got,
          List.drop_eq_getElem_cons inside, List.reverse_cons, List.append_assoc]
        rfl
  exact loop _ 0 [] rfl

theorem leadingByte_eq (c : Char) (byte : UInt8) (more : List UInt8)
    (coded : String.utf8EncodeChar c = byte :: more) :
    SignatureFault.leadingByte c = Char.ofNat byte.toNat := by
  have whole : (String.singleton c).toUTF8.toList = byte :: more := by
    have split := bytes_split (show (String.singleton c).toList = [] ++ [c] by simp)
    rw [toList_data]
    exact split.trans (by simp [coded])
  rw [SignatureFault.leadingByte, whole]

theorem leadingByte_ascii (c : Char) (low : c.toNat < 128) : SignatureFault.leadingByte c = c := by
  rw [leadingByte_eq c _ [] (encode_ascii c low)]
  have same : (UInt8.ofNat c.toNat).toNat = c.toNat := by
    simp
    omega
  rw [same, Char.ofNat_toNat]

theorem leadingByte_high (c : Char) (high : ¬ c.toNat < 128) :
    ¬ (SignatureFault.leadingByte c).toNat < 128 := by
  obtain ⟨byte, more, coded⟩ := encode_head c
  have great := encode_high c high byte (by simp [coded])
  have small := byte.toNat_lt
  rw [leadingByte_eq c byte more coded, Char.toNat_ofNat, if_pos (.inl (by omega))]
  omega

theorem leadingByte_eq_iff (c d : Char) (low : d.toNat < 128) :
    SignatureFault.leadingByte c = d ↔ c = d := by
  by_cases ascii : c.toNat < 128
  · rw [leadingByte_ascii c ascii]
  · constructor
    · rintro rfl
      exact absurd low (leadingByte_high c ascii)
    · rintro rfl
      exact absurd low ascii

theorem Stands.leading {text : String} {i : Nat} {c : Char} {rest : List Char}
    (stands : Stands text i (c :: rest)) :
    ∃ byte, byte? text i = some byte ∧ Char.ofNat byte.toNat = SignatureFault.leadingByte c := by
  obtain ⟨byte, more, coded⟩ := encode_head c
  obtain ⟨front, whole, rfl⟩ := stands
  refine ⟨byte, ?_, (leadingByte_eq c byte more coded).symm⟩
  rw [byte?_split whole, List.flatMap_cons, coded]
  rfl

theorem ofLetter?_leading (c : Char) :
    Ty.ofLetter? (SignatureFault.leadingByte c) = Ty.ofLetter? c := by
  have other (d : Char) (high : ¬ d.toNat < 128) : Ty.ofLetter? d = none := by
    unfold Ty.ofLetter?
    split <;> first | rfl | exact absurd (by decide) high
  by_cases ascii : c.toNat < 128
  · rw [leadingByte_ascii c ascii]
  · rw [other c ascii, other _ (leadingByte_high c ascii)]

/-! What signatures come to. -/

variable {text : String} {rounds : Nat}

/-- What has been read off a signature was scanned as well. -/
def Spelled {α : Type} (text : String) (read : Except SignatureFault (α × List Char))
    (scanned : ExceptT String Scan (α × Nat)) : Prop :=
  match read with
  | .ok (a, rest) => ∃ j, scanned = pure (a, j) ∧ Stands text j rest
  | .error fault => scanned = throw fault.reason

theorem Spelled.bind {α β : Type} {read : Except SignatureFault (α × List Char)}
    {scanned : ExceptT String Scan (α × Nat)}
    {next : α × List Char → Except SignatureFault (β × List Char)}
    {next' : α × Nat → ExceptT String Scan (β × Nat)} (first : Spelled text read scanned)
    (second : ∀ a rest j, read = .ok (a, rest) → Stands text j rest →
      Spelled text (next (a, rest)) (next' (a, j))) :
    Spelled text (read >>= next) (scanned >>= next') := by
  cases read with
  | error fault =>
      obtain rfl : scanned = throw fault.reason := first
      rfl
  | ok found =>
      obtain ⟨a, rest⟩ := found
      obtain ⟨j, rfl, stands⟩ := first
      exact second a rest j rfl stands

theorem read_shorter (fuel : Nat) (cs rest : List Char) (ty : Ty)
    (read : Ty.read fuel cs = .ok (ty, rest)) : rest.length < cs.length := by
  obtain ⟨-, spelled⟩ := Ty.read_spells.1 fuel cs _ read
  obtain ⟨first, more, letters, -⟩ := letters_begin ty
  simp only at spelled
  rw [spelled, letters]
  simp

theorem ofLetter?_ascii (c : Char) (ty : Ty) (known : Ty.ofLetter? c = some ty) :
    c.toNat < 128 := by
  unfold Ty.ofLetter? at known
  split at known
  all_goals first | decide | cases known

/-- A signature is scanned as it is read; the cases are those of its reading. -/
theorem read_spelled (enough : size text.toList < rounds) :
    (∀ fuel cs, ∀ i depth, Stands text i cs → 2 * cs.length ≤ fuel → cs.length < depth →
      Spelled text (Ty.read fuel cs) (signature text rounds depth i)) ∧
    ∀ fuel cs, ∀ i depth more, Stands text i cs → 2 * cs.length < fuel → cs.length < depth →
      cs.length < more →
      Spelled text (Ty.readMembers fuel cs)
        (members text (signature text rounds depth) more i) := by
  refine Ty.read.mutual_induct _ _ ?nothing ?starved ?entry ?array ?tuple ?letter ?unknown
    ?noMembers ?starvedMembers ?closed ?member
  case nothing =>
    intro fuel i depth stands _ deep
    obtain ⟨depth, rfl⟩ := Nat.exists_eq_add_one.mpr deep
    rw [signature, stands.byte?_nil, Ty.read]
    rfl
  case starved =>
    intro cs some i _ _ short _
    exact absurd (List.eq_nil_of_length_eq_zero (by omega)) some
  case entry =>
    intro fuel rest ihKey ihValue i depth stands short deep
    obtain ⟨depth, rfl⟩ := Nat.exists_eq_add_one_of_ne_zero (Nat.ne_zero_of_lt deep)
    have brace := stands.nextAscii (by decide)
    have inner : Stands text (i + 2) rest := brace.nextAscii (by decide)
    have opened : has text (· == '{') (i + 1) = true := brace.has (ascii_is '{' (by decide))
    obtain ⟨byte, found, first⟩ := stands.leading
    rw [signature, found, Ty.read]
    simp only [first, leadingByte_ascii 'a' (by decide), Ty.ofLetter?, ↓reduceIte, opened]
    simp only [List.length_cons] at short deep
    refine (ihKey _ depth inner (by omega) (by omega)).bind fun key left j read there => ?_
    have shorter := read_shorter _ _ _ _ read
    cases basic : key.isBasic with
    | false => rfl
    | true =>
        refine (ihValue left _ depth there (by omega) (by omega)).bind
          fun value left j _ there => ?_
        have closes : has text (· == '}') j = left.head?.any (· == '}') :=
          there.has (ascii_is '}' (by decide))
        simp only [closes]
        cases left with
        | nil => rfl
        | cons d left =>
            by_cases closed : d = '}'
            · subst closed
              exact ⟨_, rfl, there.nextAscii (by decide)⟩
            · have other : (d == '}') = false := beq_eq_false_iff_ne.mpr closed
              simp only [List.head?_cons, Option.any_some, other, Bool.false_eq_true, ↓reduceIte]
              split
              · next same => exact absurd (List.cons.inj same).1 closed
              · rfl
  case array =>
    intro fuel rest noEntry ih i depth stands short deep
    obtain ⟨depth, rfl⟩ := Nat.exists_eq_add_one_of_ne_zero (Nat.ne_zero_of_lt deep)
    have inner := stands.nextAscii (by decide)
    have plain : has text (· == '{') (i + 1) = false := by
      rw [inner.has (ascii_is '{' (by decide))]
      cases rest with
      | nil => rfl
      | cons d more => exact beq_eq_false_iff_ne.mpr fun brace => noEntry more (by rw [brace])
    obtain ⟨byte, found, first⟩ := stands.leading
    rw [signature, found, Ty.read]
    · simp only [first, leadingByte_ascii 'a' (by decide), Ty.ofLetter?, ↓reduceIte, plain,
        Bool.false_eq_true]
      simp only [List.length_cons] at short deep
      refine (ih _ depth inner (by omega) (by omega)).bind fun element left j _ there => ?_
      exact ⟨j, rfl, there⟩
    · exact noEntry
  case tuple =>
    intro fuel rest ih i depth stands short deep
    obtain ⟨depth, rfl⟩ := Nat.exists_eq_add_one_of_ne_zero (Nat.ne_zero_of_lt deep)
    have inner := stands.nextAscii (by decide)
    obtain ⟨byte, found, first⟩ := stands.leading
    rw [signature, found, Ty.read]
    simp only [first, leadingByte_ascii '(' (by decide), Ty.ofLetter?, ↓reduceIte]
    simp only [List.length_cons] at short deep
    refine (ih _ depth rounds inner (by omega) (by omega) (inner.length_le.trans_lt enough)).bind
      fun members left j _ there => ?_
    exact ⟨j, rfl, there⟩
  case letter =>
    intro fuel c rest noEntry noArray noTuple ty known i depth stands short deep
    obtain ⟨depth, rfl⟩ := Nat.exists_eq_add_one_of_ne_zero (Nat.ne_zero_of_lt deep)
    obtain ⟨byte, found, first⟩ := stands.leading
    rw [signature, found]
    simp only [first, ofLetter?_leading, Ty.read, known]
    exact ⟨_, rfl, stands.nextAscii (ofLetter?_ascii c ty known)⟩
  case unknown =>
    intro fuel c rest noEntry noArray noTuple unknown i depth stands short deep
    obtain ⟨depth, rfl⟩ := Nat.exists_eq_add_one_of_ne_zero (Nat.ne_zero_of_lt deep)
    obtain ⟨byte, found, first⟩ := stands.leading
    rw [signature, found]
    simp only [first, ofLetter?_leading, Ty.read, unknown, leadingByte_eq_iff c 'a' (by decide),
      leadingByte_eq_iff c '(' (by decide)]
    rw [if_neg noArray, if_neg noTuple]
    rfl
  case noMembers =>
    intro fuel i depth more stands _ _ many
    obtain ⟨more, rfl⟩ := Nat.exists_eq_add_one.mpr many
    rw [members, stands.byte?_nil, Ty.readMembers]
    rfl
  case starvedMembers =>
    intro cs some i _ _ _ short
    exact absurd short (Nat.not_lt_zero _)
  case closed =>
    intro fuel rest i depth more stands _ _ many
    obtain ⟨more, rfl⟩ := Nat.exists_eq_add_one_of_ne_zero (Nat.ne_zero_of_lt many)
    obtain ⟨byte, found, first⟩ := stands.leading
    rw [members, found, Ty.readMembers]
    simp only [first, leadingByte_ascii ')' (by decide), ↓reduceIte]
    exact ⟨_, rfl, stands.nextAscii (by decide)⟩
  case member =>
    intro fuel cs some notClosed ih ihMore i depth more stands short deep many
    obtain ⟨more, rfl⟩ := Nat.exists_eq_add_one_of_ne_zero (Nat.ne_zero_of_lt many)
    obtain ⟨c, rest, rfl⟩ := List.exists_cons_of_ne_nil some
    obtain ⟨byte, found, first⟩ := stands.leading
    have other : c ≠ ')' := fun closed => notClosed rest (by rw [closed])
    rw [members, found, Ty.readMembers]
    · simp only [first, leadingByte_eq_iff c ')' (by decide), other, ↓reduceIte]
      refine (ih i depth stands (by omega) deep).bind fun member left j read there => ?_
      have shorter := read_shorter _ _ _ _ read
      refine (ihMore left j depth more there (by omega) (by omega) (by omega)).bind
        fun members left j _ there => ?_
      exact ⟨j, rfl, there⟩
    · exact some
    · exact notClosed

theorem readFront_spelled (enough : size text.toList < rounds) {i : Nat} {cs : List Char}
    (stands : Stands text i cs) :
    Spelled text (Ty.readFront cs) (signature text rounds rounds i) :=
  (read_spelled enough).1 _ cs i rounds stands (Nat.le_refl _) (stands.length_le.trans_lt enough)

end SimBus.Surface.Source
