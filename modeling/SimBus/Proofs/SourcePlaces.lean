import SimBus.Proofs.ReaderSteps
import SimBus.Proofs.SourceBytes
/-!
Where things stand in a text. The beginnings of lines are found among its bytes, and an
offset between characters gives the line and the column that counting characters gives;
so where a cursor stands, there is an offset that all of this works at.
-/

namespace SimBus.Surface

open Cursor (Moves)

namespace Source

/-! Positions count lines and characters. -/

/-- The offsets behind the line breaks of a text that begins at this offset. -/
def breaks : (offset : Nat) → List Char → List Nat
  | _, [] => []
  | offset, c :: rest =>
      (if c = '\n' then [offset + 1] else []) ++ breaks (offset + c.utf8Size) rest

theorem breaks_append (offset : Nat) (first second : List Char) :
    breaks offset (first ++ second) =
      breaks offset first ++ breaks (offset + size first) second := by
  induction first generalizing offset with
  | nil => rfl
  | cons c rest ih => simp only [List.cons_append, breaks, ih, List.append_assoc, size_cons,
      Nat.add_assoc]

theorem breaks_behind (offset : Nat) (cs : List Char) :
    ∀ place ∈ breaks offset cs, offset < place := by
  induction cs generalizing offset with
  | nil => simp [breaks]
  | cons c rest ih =>
      intro place member
      rcases List.mem_append.mp member with here | later
      · split at here
        · obtain rfl := List.mem_singleton.mp here
          exact Nat.lt_succ_self offset
        · cases here
      · exact Nat.lt_of_le_of_lt (Nat.le_add_right _ _) (ih _ place later)

theorem encode_oneLine (c : Char) (other : c ≠ '\n') :
    ∀ byte ∈ String.utf8EncodeChar c, byte ≠ 10 := by
  rintro byte member rfl
  by_cases low : c.toNat < 128
  · rw [encode_ascii c low, List.mem_singleton] at member
    have ten : c.toNat = 10 := by
      have same := congrArg UInt8.toNat member
      simp at same
      omega
    exact other (Char.toNat_inj.mp ten)
  · exact absurd (encode_high c low 10 member) (by decide)

theorem encode_breaks (offset : Nat) (c : Char) :
    (((String.utf8EncodeChar c).zipIdx offset).filter (·.1 == 10)).map (·.2 + 1) =
      if c = '\n' then [offset + 1] else [] := by
  split
  · next same =>
      subst same
      rfl
  · next other =>
      rw [List.map_eq_nil_iff, List.filter_eq_nil_iff]
      intro ⟨byte, place⟩ member same
      exact encode_oneLine c other byte (List.fst_mem_of_mem_zipIdx member) (eq_of_beq same)

theorem lineStarts_eq (text : String) : lineStarts text = 0 :: breaks 0 text.toList := by
  have flat (offset : Nat) (cs : List Char) :
      (((cs.flatMap String.utf8EncodeChar).zipIdx offset).filter (·.1 == 10)).map (·.2 + 1) =
        breaks offset cs := by
    induction cs generalizing offset with
    | nil => rfl
    | cons c rest ih =>
        rw [List.flatMap_cons, List.zipIdx_append, List.filter_append, List.map_append,
          encode_breaks, String.length_utf8EncodeChar, ih, breaks]
  have coded := bytes_split (show text.toList = [] ++ text.toList from rfl)
  rw [lineStarts, coded]
  exact congrArg _ (flat 0 text.toList)

/-- A place of a text: the lines before, and the one that it is on as far as to it. -/
structure Placed (front : List Char) (earlier : List Nat) (done line : List Char) : Prop where
  starts : 0 :: breaks 0 front = earlier ++ [size done]
  sorted : ∀ start ∈ earlier, start < size done
  split : front = done ++ line
  position : Position.past ⟨1, 1⟩ front = ⟨earlier.length + 1, line.length + 1⟩

theorem placed (front : List Char) : ∃ earlier done line, Placed front earlier done line := by
  induction front using List.reverseRecOn with
  | nil => exact ⟨[], [], [], rfl, by simp, rfl, rfl⟩
  | append_singleton front c ih =>
      obtain ⟨earlier, done, line, starts, sorted, rfl, position⟩ := ih
      have more : 0 :: breaks 0 (done ++ line ++ [c]) =
          earlier ++ [size done] ++ if c = '\n' then [size (done ++ line) + 1] else [] := by
        rw [breaks_append, ← List.cons_append, starts]
        simp [breaks]
      have step : Position.past ⟨1, 1⟩ (done ++ line ++ [c]) =
          Position.after ⟨earlier.length + 1, line.length + 1⟩ c := by
        rw [Position.past_append, position]
        rfl
      by_cases newline : c = '\n'
      · subst newline
        refine ⟨earlier ++ [size done], done ++ line ++ ['\n'], [], ?_, ?_, by simp, ?_⟩
        · rw [more, if_pos rfl, size_append (done ++ line)]
          rfl
        · intro start member
          simp only [List.mem_append, List.mem_singleton] at member
          simp only [size_append, size_cons]
          rcases member with member | rfl
          · have before := sorted start member
            omega
          · have positive := ('\n' : Char).utf8Size_pos
            omega
        · rw [step]
          simp [Position.after]
      · refine ⟨earlier, done, line ++ [c], ?_, sorted, by simp, ?_⟩
        · rw [more, if_neg newline, List.append_nil]
        · rw [step]
          simp [Position.after, newline]

theorem search_sorted (earlier later : List Nat) (start offset : Nat)
    (sorted : ∀ place ∈ earlier, place < start) (reached : start ≤ offset)
    (ahead : ∀ place ∈ later, offset < place) :
    search (earlier ++ start :: later) offset =
      if start = offset then .ok earlier.length else .error (earlier.length + 1) := by
  have missing : earlier.findIdx? (· == offset) = none := by
    rw [List.findIdx?_eq_none_iff]
    intro place member
    have before := sorted place member
    exact beq_eq_false_iff_ne.mpr (by omega)
  unfold search
  rw [List.findIdx?_append, missing, List.findIdx?_cons]
  by_cases found : start = offset
  · simp [found]
  · have unseen : later.findIdx? (· == offset) = none := by
      rw [List.findIdx?_eq_none_iff]
      intro place member
      have behind := ahead place member
      exact beq_eq_false_iff_ne.mpr (by omega)
    have counted : earlier.countP (· < offset) = earlier.length :=
      List.countP_eq_length.mpr fun place member => by
        have before := sorted place member
        exact decide_eq_true (by omega)
    have uncounted : later.countP (· < offset) = 0 :=
      List.countP_eq_zero.mpr fun place member => by
        have behind := ahead place member
        simp
        omega
    have less : start < offset := by omega
    simp [found, unseen, counted, uncounted, less]

theorem positionAt_split {text : String} {front behind : List Char}
    (whole : text.toList = front ++ behind) :
    positionAt text (size front) = pure (Position.past ⟨1, 1⟩ front) := by
  obtain ⟨earlier, done, line, starts, sorted, rfl, position⟩ := placed front
  have all : lineStarts text = earlier ++ size done :: breaks (size (done ++ line)) behind := by
    rw [lineStarts_eq, whole, breaks_append, ← List.cons_append, starts, Nat.zero_add]
    simp
  have ahead := breaks_behind (size (done ++ line)) behind
  have reached : size done ≤ size (done ++ line) := by simp
  have before : slice text (size done) (size (done ++ line)) = pure line := by
    rw [size_append]
    exact slice_split (by rw [whole, List.append_assoc])
  have there : (lineStarts text)[earlier.length]? = some (size done) := by
    rw [all]
    simp
  rw [positionAt, all, search_sorted _ _ _ _ sorted reached ahead, ← all, position]
  by_cases atStart : size done = size (done ++ line)
  · simp only [if_pos atStart, pure_bind, there, before]
  · simp only [if_neg atStart, pure_bind, there, before]

/-! Places that a text has. -/

def lines (text : String) : List (List Char) := text.toList.splitOn '\n'

/-- The position counts the lines and characters before a place of the text. -/
def Inside (text : String) (p : Position) : Prop :=
  ∃ front behind, text.toList = front ++ behind ∧ p = Position.past ⟨1, 1⟩ front

theorem splitOn_length (cs : List Char) : (cs.splitOn '\n').length = cs.count '\n' + 1 := by
  induction cs with
  | nil => rfl
  | cons c rest ih =>
      rw [List.splitOn_cons_eq_if_modifyHead, List.count_cons]
      split <;> simp [*]

theorem lines_length (text : String) : (lines text).length = text.toList.count '\n' + 1 :=
  splitOn_length text.toList

theorem past_reach (front behind : List Char) (p : Position) :
    ∃ more line, (p.past front).line = p.line + more ∧
      ((front ++ behind).splitOn '\n')[more]? = some line ∧
      (p.past front).column ≤ line.length + if more = 0 then p.column else 1 := by
  induction front generalizing p with
  | nil =>
      obtain ⟨line, others, split⟩ := List.exists_cons_of_ne_nil (List.splitOn_ne_nil '\n' behind)
      exact ⟨0, line, rfl, by simp [split], by simp [Position.past]⟩
  | cons c rest ih =>
      obtain ⟨more, line, below, found, within⟩ := ih (p.after c)
      have step : p.past (c :: rest) = (p.after c).past rest := rfl
      rw [step, List.cons_append, List.splitOn_cons_eq_if_modifyHead]
      by_cases newline : c = '\n'
      · subst newline
        refine ⟨more + 1, line, ?_, by simpa using found, ?_⟩
        · rw [below]
          simp [Position.after]
          omega
        · simpa [Position.after] using within
      · have other : (c == '\n') = false := beq_eq_false_iff_ne.mpr newline
        simp only [Position.after, newline, ↓reduceIte] at below within ⊢
        cases more with
        | zero =>
            refine ⟨0, c :: line, below, ?_, ?_⟩
            · simp [other, found]
            · simp only [↓reduceIte, List.length_cons] at within ⊢
              omega
        | succ more =>
            refine ⟨more + 1, line, below, ?_, by simpa using within⟩
            simp [other, found]

theorem past_positive (front : List Char) (p : Position) (line : 1 ≤ p.line)
    (column : 1 ≤ p.column) :
    1 ≤ (p.past front).line ∧ 1 ≤ (p.past front).column := by
  induction front generalizing p with
  | nil => exact ⟨line, column⟩
  | cons c rest ih =>
      refine ih (p.after c) ?_ ?_ <;> unfold Position.after <;> split <;> simp [line]

theorem inside_bounds {text : String} {p : Position} (inside : Inside text p) :
    1 ≤ p.line ∧ 1 ≤ p.column ∧
      ∃ line, (lines text)[p.line - 1]? = some line ∧ p.column ≤ line.length + 1 := by
  obtain ⟨front, behind, whole, rfl⟩ := inside
  obtain ⟨more, line, below, found, within⟩ := past_reach front behind ⟨1, 1⟩
  obtain ⟨first, left⟩ := past_positive front ⟨1, 1⟩ (Nat.le_refl 1) (Nat.le_refl 1)
  refine ⟨first, left, line, ?_, by simpa using within⟩
  rw [lines, whole, below, Nat.add_sub_cancel_left, found]

/-! Where characters stand. -/

/-- These characters stand at the offset, and nothing behind them. -/
def Stands (text : String) (i : Nat) (cs : List Char) : Prop :=
  ∃ front, text.toList = front ++ cs ∧ size front = i

def At (text : String) (c : Cursor) (i : Nat) : Prop :=
  ∃ front, text.toList = front ++ c.rest ∧ c.position = Position.past ⟨1, 1⟩ front ∧ size front = i

/-- What has been read was scanned as well. -/
def Mirrors {α β : Type} (text : String) (same : α → β → Prop) (read : Except GrammarError α)
    (scanned : Scan β) : Prop :=
  match read with
  | .ok a => ∃ b, scanned = pure b ∧ same a b
  | .error e => scanned = throw (.grammar e) ∧ Inside text e.position

/-- Characters of this kind take one byte each. -/
def Ascii (kind : Char → Bool) : Prop := ∀ c, kind c = true → c.toNat < 128

theorem utf8Size_ascii {c : Char} (low : c.toNat < 128) : c.utf8Size = 1 := by
  rw [← String.length_utf8EncodeChar, encode_ascii c low]
  rfl

theorem length_le_size (cs : List Char) : cs.length ≤ size cs := by
  induction cs with
  | nil => exact Nat.le_refl 0
  | cons c rest ih =>
      have positive := c.utf8Size_pos
      rw [size_cons, List.length_cons]
      omega

variable {text : String}

namespace Stands

variable {i : Nat} {cs : List Char}

theorem passed {middle behind : List Char} (stands : Stands text i (middle ++ behind)) :
    Stands text (i + size middle) behind := by
  obtain ⟨front, whole, rfl⟩ := stands
  exact ⟨front ++ middle, by rw [whole, List.append_assoc], size_append _ _⟩

theorem size_le (stands : Stands text i cs) : size cs ≤ size text.toList := by
  obtain ⟨front, whole, -⟩ := stands
  rw [whole, size_append]
  exact Nat.le_add_left _ _

theorem length_le (stands : Stands text i cs) : cs.length ≤ size text.toList :=
  Nat.le_trans (length_le_size cs) stands.size_le

theorem next {c : Char} {rest : List Char} (stands : Stands text i (c :: rest)) :
    Stands text (i + c.utf8Size) rest :=
  passed (show Stands text i ([c] ++ rest) from stands)

theorem nextAscii {c : Char} {rest : List Char} (stands : Stands text i (c :: rest))
    (low : c.toNat < 128) : Stands text (i + 1) rest := by
  have next := stands.next
  rwa [utf8Size_ascii low] at next

theorem has {kind : Char → Bool} (stands : Stands text i cs) (ascii : Ascii kind) :
    Source.has text kind i = cs.head?.any kind := by
  obtain ⟨front, whole, rfl⟩ := stands
  exact has_split whole kind ascii

theorem sliceFrom (stands : Stands text i cs) : Source.sliceFrom text i = pure cs := by
  obtain ⟨front, whole, rfl⟩ := stands
  exact sliceFrom_split whole

theorem slice {middle behind : List Char} (stands : Stands text i (middle ++ behind)) :
    Source.slice text i (i + size middle) = pure middle := by
  obtain ⟨front, whole, rfl⟩ := stands
  exact slice_split whole

theorem byte?_nil (stands : Stands text i []) : byte? text i = none := by
  obtain ⟨front, whole, rfl⟩ := stands
  exact byte?_split whole

theorem byte?_cons {c : Char} {rest : List Char} (stands : Stands text i (c :: rest)) :
    ∃ byte, byte? text i = some byte ∧ ∀ kind, Ascii kind → byteIs kind byte = kind c := by
  obtain ⟨byte, more, coded⟩ := encode_head c
  have found : byte? text i = some byte := by
    obtain ⟨front, whole, rfl⟩ := stands
    rw [byte?_split whole, List.flatMap_cons, coded]
    rfl
  refine ⟨byte, found, fun kind ascii => ?_⟩
  have shown := stands.has ascii
  rw [Source.has, found] at shown
  simpa using shown

theorem slice_to {n j : Nat} (stands : Stands text i cs) (there : Stands text j (cs.drop n)) :
    Source.slice text i j = pure (cs.take n) := by
  rw [← List.take_append_drop n cs] at stands
  have sliced := stands.slice
  obtain ⟨front, whole, sized⟩ := stands.passed
  obtain ⟨front', whole', rfl⟩ := there
  obtain rfl := List.append_cancel_right (whole'.symm.trans whole)
  rwa [sized]

end Stands

theorem Mirrors.mono {α β : Type} {same weaker : α → β → Prop} {read : Except GrammarError α}
    {scanned : Scan β} (mirrors : Mirrors text same read scanned)
    (weakens : ∀ a b, same a b → weaker a b) : Mirrors text weaker read scanned := by
  cases read with
  | error e => exact mirrors
  | ok a =>
      obtain ⟨b, rfl, alike⟩ := mirrors
      exact ⟨b, rfl, weakens a b alike⟩

theorem Mirrors.bind {α α' β β' : Type} {same : α → β → Prop} {same' : α' → β' → Prop}
    {read : Except GrammarError α} {scanned : Scan β} {next : α → Except GrammarError α'}
    {next' : β → Scan β'} (first : Mirrors text same read scanned)
    (second : ∀ a b, read = .ok a → same a b → Mirrors text same' (next a) (next' b)) :
    Mirrors text same' (read >>= next) (scanned >>= next') := by
  cases read with
  | error e =>
      obtain ⟨rfl, inside⟩ := first
      exact ⟨rfl, inside⟩
  | ok a =>
      obtain ⟨b, rfl, alike⟩ := first
      exact second a b rfl alike

namespace At

variable {c d : Cursor} {i : Nat}

theorem start (text : String) : At text (Cursor.start text) 0 := ⟨[], rfl, rfl, rfl⟩

theorem stands (here : At text c i) : Stands text i c.rest := by
  obtain ⟨front, whole, -, sized⟩ := here
  exact ⟨front, whole, sized⟩

theorem inside (here : At text c i) : Inside text c.position := by
  obtain ⟨front, whole, place, -⟩ := here
  exact ⟨front, c.rest, whole, place⟩

theorem position (here : At text c i) : positionAt text i = pure c.position := by
  obtain ⟨front, whole, place, rfl⟩ := here
  rw [positionAt_split whole, place]

theorem moves {j : Nat} (here : At text c i) (moves : Moves c d) (there : Stands text j d.rest) :
    At text d j := by
  obtain ⟨front, whole, place, -⟩ := here
  obtain ⟨middle, rest, place'⟩ := moves
  obtain ⟨front', whole', sized⟩ := there
  have same : front' = front ++ middle := by
    have both : front' ++ d.rest = front ++ middle ++ d.rest := by
      rw [← whole', whole, rest, List.append_assoc]
    exact List.append_cancel_right both
  refine ⟨front', whole', ?_, sized⟩
  rw [place', place, same, Position.past_append]

theorem advance {n j : Nat} (here : At text c i) (there : Stands text j (c.rest.drop n)) :
    At text (c.advance n) j :=
  here.moves (Cursor.moves_advance n c) (by rwa [Cursor.advance_eq])

theorem passed {p : Position} {middle behind : List Char} (here : At text ⟨middle ++ behind, p⟩ i) :
    At text ⟨behind, p.past middle⟩ (i + size middle) :=
  here.moves (Cursor.moves_over middle behind p) here.stands.passed

theorem next {p : Position} {ch : Char} {rest : List Char} (here : At text ⟨ch :: rest, p⟩ i) :
    At text ⟨rest, p.after ch⟩ (i + ch.utf8Size) :=
  passed (show At text ⟨[ch] ++ rest, p⟩ i from here)

theorem unique {j : Nat} (here : At text c i) (there : At text c j) : i = j := by
  obtain ⟨front, whole, -, rfl⟩ := here
  obtain ⟨front', whole', -, rfl⟩ := there
  rw [List.append_cancel_right (whole.symm.trans whole')]

theorem fails {α β : Type} (same : α → β → Prop) (here : At text c i) (expected found : String) :
    Mirrors text same (.error ⟨c.position, expected, found⟩)
      (syntaxError text i expected found) := by
  refine ⟨?_, here.inside⟩
  rw [syntaxError, here.position, pure_bind]

end At

end Source

end SimBus.Surface
