import SimBus.Proofs.CursorMoves
/-!
A program text as a row of bytes. Offsets count bytes, so a slice of the text can
begin or end in the middle of a character, and then there is nothing to be done but
to give up. Where a cursor stands, there is an offset that all of this works at.
-/

namespace SimBus.Surface

inductive Stop where
  /-- The text is wrong. -/
  | grammar (e : GrammarError)
  /-- The scan asked for something that is not there, such as a slice that does not begin
  and end between characters. -/
  | panic
  /-- A loop has used up the rounds that it was given. -/
  | exhausted

abbrev Scan := Except Stop

/-! Sizes. -/

def size (cs : List Char) : Nat := (cs.map Char.utf8Size).sum

@[simp] theorem size_nil : size [] = 0 := rfl

@[simp] theorem size_cons (c : Char) (rest : List Char) :
    size (c :: rest) = c.utf8Size + size rest :=
  rfl

@[simp] theorem size_append (first second : List Char) :
    size (first ++ second) = size first + size second := by
  simp [size]

theorem size_ofList (cs : List Char) : (String.ofList cs).utf8ByteSize = size cs := by
  induction cs with
  | nil => rfl
  | cons c rest ih => simp [String.ofList_cons, ih]

theorem size_toList (text : String) : size text.toList = text.utf8ByteSize := by
  rw [← size_ofList, String.ofList_toList]

namespace Source

/-! Bytes. -/

section

variable (text : String)

def bytes : List UInt8 := text.toUTF8.data.toList

def byte? (offset : Nat) : Option UInt8 := (bytes text)[offset]?

/-- A byte that is a character on its own, of this kind. -/
def byteIs (kind : Char → Bool) (byte : UInt8) : Bool :=
  byte.toNat < 128 && kind (Char.ofNat byte.toNat)

def has (kind : Char → Bool) (offset : Nat) : Bool := (byte? text offset).any (byteIs kind)

/-! Slices. -/

/-- The characters behind the first `count` bytes, if these are whole characters. -/
def behind? : (count : Nat) → List Char → Option (List Char)
  | 0, cs => some cs
  | _ + 1, [] => none
  | count + 1, c :: rest =>
      if c.utf8Size ≤ count + 1 then behind? (count + 1 - c.utf8Size) rest else none

/-- The characters in the first `count` bytes, if these are whole characters. -/
def front? : (count : Nat) → List Char → Option (List Char)
  | 0, _ => some []
  | _ + 1, [] => none
  | count + 1, c :: rest =>
      if c.utf8Size ≤ count + 1 then (front? (count + 1 - c.utf8Size) rest).map (c :: ·) else none

def sliced : Option (List Char) → Scan (List Char)
  | some cs => pure cs
  | none => throw .panic

def sliceFrom (start : Nat) : Scan (List Char) := sliced (behind? start text.toList)

def slice (start stop : Nat) : Scan (List Char) :=
  sliced (if start ≤ stop then (behind? start text.toList).bind (front? (stop - start)) else none)

/-! Positions. -/

def lineStarts : List Nat :=
  0 :: ((bytes text).zipIdx.filter (·.1 == 10)).map (·.2 + 1)

/-- Looks an offset up among the beginnings of lines, which are in order: its place, or
the place where it would be put. -/
def search (starts : List Nat) (offset : Nat) : Except Nat Nat :=
  match starts.findIdx? (· == offset) with
  | some place => .ok place
  | none => .error (starts.countP (· < offset))

/-- The line of an offset and its column, in characters from the beginning of the line. -/
def positionAt (offset : Nat) : Scan Position := do
  let line ← match search (lineStarts text) offset with
    | .ok place => pure place
    | .error (place + 1) => pure place
    | .error 0 => throw .panic
  match (lineStarts text)[line]? with
  | none => throw .panic
  | some start =>
      let before ← slice text start offset
      pure ⟨line + 1, before.length + 1⟩

def syntaxError {α : Type} (offset : Nat) (expected found : String) : Scan α := do
  let position ← positionAt text offset
  throw (.grammar ⟨position, expected, found⟩)

end

/-! What bytes show. -/

theorem encode_ascii (c : Char) (low : c.toNat < 128) :
    String.utf8EncodeChar c = [UInt8.ofNat c.toNat] := by
  rw [String.utf8EncodeChar]
  exact if_pos (Nat.le_of_lt_succ low)

theorem encode_high (c : Char) (high : ¬ c.toNat < 128) :
    ∀ byte ∈ String.utf8EncodeChar c, 128 ≤ byte.toNat := by
  have big : ¬ c.val.toNat ≤ 127 := fun low => high (Nat.lt_succ_of_le low)
  rw [String.utf8EncodeChar]
  simp only [big, ↓reduceIte]
  split
  · simp
    omega
  · split <;> simp <;> omega

theorem byteIs_ascii (kind : Char → Bool) (c : Char) (low : c.toNat < 128) :
    byteIs kind (UInt8.ofNat c.toNat) = kind c := by
  have same : (UInt8.ofNat c.toNat).toNat = c.toNat := by
    simp
    omega
  rw [byteIs, same, Char.ofNat_toNat, decide_eq_true low, Bool.true_and]

theorem byteIs_high (kind : Char → Bool) (byte : UInt8) (high : 128 ≤ byte.toNat) :
    byteIs kind byte = false := by
  rw [byteIs, decide_eq_false (Nat.not_lt.mpr high), Bool.false_and]

theorem encode_length (cs : List Char) : (cs.flatMap String.utf8EncodeChar).length = size cs := by
  simp [size, List.length_flatMap]

theorem encode_head (c : Char) : ∃ byte more, String.utf8EncodeChar c = byte :: more :=
  List.exists_cons_of_ne_nil (String.utf8EncodeChar_ne_nil)

section

variable {text : String} {front behind : List Char} (whole : text.toList = front ++ behind)
include whole

theorem bytes_split : bytes text =
    front.flatMap String.utf8EncodeChar ++ behind.flatMap String.utf8EncodeChar := by
  rw [bytes, String.toUTF8, ← String.utf8Encode_toList, whole]
  simp [List.utf8Encode]

theorem byte?_split :
    byte? text (size front) = (behind.flatMap String.utf8EncodeChar).head? := by
  rw [byte?, bytes_split whole, ← encode_length front, List.getElem?_append_right (Nat.le_refl _),
    Nat.sub_self, List.head?_eq_getElem?]

theorem has_split (kind : Char → Bool) (narrow : ∀ c, kind c = true → c.toNat < 128) :
    has text kind (size front) = behind.head?.any kind := by
  rw [has, byte?_split whole]
  cases behind with
  | nil => rfl
  | cons c rest =>
      by_cases low : c.toNat < 128
      · simp [encode_ascii c low, byteIs_ascii kind c low]
      · obtain ⟨byte, more, coded⟩ := encode_head c
        have high : 128 ≤ byte.toNat := encode_high c low byte (by simp [coded])
        have other : kind c = false := Bool.eq_false_iff.mpr fun is => low (narrow c is)
        simp [coded, byteIs_high kind byte high, other]

end

/-! Slices lie between characters. -/

theorem behind?_cons (c : Char) (count : Nat) (rest : List Char) :
    behind? (c.utf8Size + count) (c :: rest) = behind? count rest := by
  obtain ⟨more, sized⟩ := Nat.exists_eq_add_one.mpr c.utf8Size_pos
  rw [sized, Nat.add_right_comm, behind?, sized, if_pos (by omega)]
  congr 1
  omega

theorem front?_cons (c : Char) (count : Nat) (rest : List Char) :
    front? (c.utf8Size + count) (c :: rest) = (front? count rest).map (c :: ·) := by
  obtain ⟨more, sized⟩ := Nat.exists_eq_add_one.mpr c.utf8Size_pos
  rw [sized, Nat.add_right_comm, front?, sized, if_pos (by omega)]
  congr 2
  omega

theorem behind?_size (front behind : List Char) :
    behind? (size front) (front ++ behind) = some behind := by
  induction front with
  | nil => cases behind <;> rfl
  | cons c rest ih => rw [size_cons, List.cons_append, behind?_cons, ih]

theorem front?_size (front behind : List Char) :
    front? (size front) (front ++ behind) = some front := by
  induction front with
  | nil => cases behind <;> rfl
  | cons c rest ih => rw [size_cons, List.cons_append, front?_cons, ih, Option.map_some]

theorem behind?_some {count : Nat} {cs behind : List Char}
    (found : behind? count cs = some behind) :
    ∃ front, cs = front ++ behind ∧ size front = count := by
  fun_induction behind? count cs with
  | case1 => exact ⟨[], Option.some.inj found, rfl⟩
  | case2 | case4 => cases found
  | case3 count c rest fits ih =>
      obtain ⟨front, rfl, sized⟩ := ih found
      exact ⟨c :: front, rfl, by rw [size_cons, sized]; omega⟩

theorem front?_some {count : Nat} {cs front : List Char} (found : front? count cs = some front) :
    ∃ behind, cs = front ++ behind ∧ size front = count := by
  fun_induction front? count cs generalizing front with
  | case1 cs =>
      obtain rfl := Option.some.inj found
      exact ⟨cs, rfl, rfl⟩
  | case2 | case4 => cases found
  | case3 count c rest fits ih =>
      obtain ⟨more, shorter, rfl⟩ := Option.map_eq_some_iff.mp found
      obtain ⟨behind, rfl, sized⟩ := ih shorter
      exact ⟨behind, rfl, by rw [size_cons, sized]; omega⟩

/-- The offset lies between two characters, or at an end of the text. -/
def Boundary (text : String) (offset : Nat) : Prop := String.Pos.Raw.IsValid text ⟨offset⟩

theorem boundary_iff (text : String) (offset : Nat) : Boundary text offset ↔
    ∃ front behind, text.toList = front ++ behind ∧ size front = offset := by
  rw [Boundary, String.Pos.Raw.isValid_iff_exists_append]
  constructor
  · rintro ⟨front, behind, rfl, place⟩
    refine ⟨front.toList, behind.toList, String.toList_append, ?_⟩
    rw [size_toList]
    exact (congrArg String.Pos.Raw.byteIdx place).symm
  · rintro ⟨front, behind, whole, rfl⟩
    refine ⟨String.ofList front, String.ofList behind, ?_, ?_⟩
    · rw [← String.ofList_append, ← whole, String.ofList_toList]
    · rw [← size_ofList]
      rfl

theorem size_eq_zero {cs : List Char} (none : size cs = 0) : cs = [] := by
  cases cs with
  | nil => rfl
  | cons c rest =>
      have positive := c.utf8Size_pos
      rw [size_cons] at none
      omega

section

variable {text : String} {front middle behind : List Char}

theorem sliceFrom_split (whole : text.toList = front ++ behind) :
    sliceFrom text (size front) = pure behind := by
  rw [sliceFrom, whole, behind?_size]
  rfl

theorem slice_split (whole : text.toList = front ++ (middle ++ behind)) :
    slice text (size front) (size front + size middle) = pure middle := by
  rw [slice, if_pos (Nat.le_add_right _ _), whole, behind?_size, Option.bind_some,
    Nat.add_sub_cancel_left, front?_size]
  rfl

end

theorem sliced_ok_iff (part : Option (List Char)) :
    (∃ cs, sliced part = pure cs) ↔ part.isSome := by
  cases part with
  | none => exact ⟨fun ⟨_, same⟩ => (by cases same), fun none => by cases none⟩
  | some cs => exact ⟨fun _ => rfl, fun _ => ⟨cs, rfl⟩⟩

theorem slice_ok_iff (text : String) (start stop : Nat) :
    (∃ cs, slice text start stop = pure cs) ↔
      start ≤ stop ∧ Boundary text start ∧ Boundary text stop := by
  rw [slice, sliced_ok_iff, boundary_iff, boundary_iff]
  constructor
  · intro found
    split at found
    · next ordered =>
        obtain ⟨middle, found⟩ := Option.isSome_iff_exists.mp found
        obtain ⟨rest, first, second⟩ := Option.bind_eq_some_iff.mp found
        obtain ⟨front, whole, rfl⟩ := behind?_some first
        obtain ⟨behind, rfl, sized⟩ := front?_some second
        refine ⟨ordered, ⟨front, _, whole, rfl⟩, front ++ middle, behind, ?_, ?_⟩
        · rw [whole, List.append_assoc]
        · rw [size_append]
          omega
    · cases found
  · rintro ⟨ordered, ⟨front, rest, whole, rfl⟩, longer, behind, whole', rfl⟩
    obtain ⟨middle, rfl, rfl⟩ : ∃ middle, longer = front ++ middle ∧ rest = middle ++ behind := by
      rcases List.append_eq_append_iff.mp (whole.symm.trans whole') with
        ⟨middle, rfl, rfl⟩ | ⟨middle, rfl, rfl⟩
      · exact ⟨middle, rfl, rfl⟩
      · obtain rfl := size_eq_zero (show size middle = 0 by rw [size_append] at ordered; omega)
        exact ⟨[], by simp, rfl⟩
    rw [if_pos ordered, whole, behind?_size, size_append, Nat.add_sub_cancel_left, Option.bind_some,
      front?_size]
    rfl

theorem sliceFrom_ok_iff (text : String) (start : Nat) :
    (∃ cs, sliceFrom text start = pure cs) ↔ Boundary text start := by
  rw [sliceFrom, sliced_ok_iff, boundary_iff]
  constructor
  · intro found
    obtain ⟨behind, found⟩ := Option.isSome_iff_exists.mp found
    obtain ⟨front, whole, sized⟩ := behind?_some found
    exact ⟨front, behind, whole, sized⟩
  · rintro ⟨front, behind, whole, rfl⟩
    rw [whole, behind?_size]
    rfl

end Source

end SimBus.Surface
