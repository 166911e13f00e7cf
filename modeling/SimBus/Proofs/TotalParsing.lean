import SimBus.Proofs.FollowedGrammar
/-!
Every text is parsed or refused. Its bytes are scanned with slices that begin and end
between characters only and in no more rounds than there are bytes, to the same end as its
characters are read, and what is refused is refused at a place that the text has.
-/

namespace SimBus.Surface.Source

theorem boundary_le {text : String} {offset : Nat} (boundary : Boundary text offset) :
    offset ≤ text.utf8ByteSize := by
  obtain ⟨front, behind, whole, rfl⟩ := (boundary_iff text offset).mp boundary
  rw [← size_toList, whole, size_append]
  exact Nat.le_add_right _ _

/-! Elsewhere than between characters there is nothing to be had. -/

theorem sliced_panic_iff (part : Option (List Char)) :
    sliced part = throw .panic ↔ ¬ ∃ cs, sliced part = pure cs := by
  cases part with
  | none => exact ⟨fun _ ⟨_, same⟩ => (by cases same), fun _ => rfl⟩
  | some cs => exact ⟨fun same => (by cases same), fun missing => absurd ⟨cs, rfl⟩ missing⟩

theorem slice_panic_iff (text : String) (start stop : Nat) : slice text start stop = throw .panic ↔
    ¬ (start ≤ stop ∧ Boundary text start ∧ Boundary text stop) := by
  rw [← slice_ok_iff]
  exact sliced_panic_iff _

theorem sliceFrom_panic_iff (text : String) (start : Nat) :
    sliceFrom text start = throw .panic ↔ ¬ Boundary text start := by
  rw [← sliceFrom_ok_iff]
  exact sliced_panic_iff _

theorem positionAt_panic_iff (text : String) (offset : Nat) :
    positionAt text offset = throw .panic ↔ ¬ Boundary text offset := by
  constructor
  · intro panics boundary
    obtain ⟨front, behind, whole, rfl⟩ := (boundary_iff text offset).mp boundary
    rw [positionAt_split whole] at panics
    cases panics
  · intro within
    have unsliced (start : Nat) : slice text start offset = throw .panic :=
      (slice_panic_iff text start offset).mpr fun inOrder => within inOrder.2.2
    -- Whatever line is found, its part before the offset cannot be taken.
    unfold positionAt
    rcases search (lineStarts text) offset with (_ | place) | place
    · rfl
    all_goals
      simp only [pure_bind]
      split
      · rfl
      · rw [unsliced]
        rfl

/-- Slices and positions are there between characters only, and not behind the end. -/
structure Guarded (text : String) : Prop where
  boundary (offset : Nat) : Boundary text offset → offset ≤ text.utf8ByteSize
  slice (start stop : Nat) : Source.slice text start stop = throw .panic ↔
    ¬ (start ≤ stop ∧ Boundary text start ∧ Boundary text stop)
  sliceFrom (start : Nat) : Source.sliceFrom text start = throw .panic ↔ ¬ Boundary text start
  positionAt (offset : Nat) : Source.positionAt text offset = throw .panic ↔ ¬ Boundary text offset

/-! Places that are reported. -/

/-- The position is that of an offset between characters: its line is one of the lines of
the text, and its column is at most the one behind the end of the line. -/
structure Located (text : String) (p : Position) : Prop where
  offset : ∃ offset ≤ text.utf8ByteSize, Boundary text offset ∧ positionAt text offset = pure p
  line : 1 ≤ p.line ∧ p.line ≤ text.toList.count '\n' + 1
  column : ∃ line, (lines text)[p.line - 1]? = some line ∧
    1 ≤ p.column ∧ p.column ≤ line.length + 1

theorem inside_located {text : String} {p : Position} (inside : Inside text p) :
    Located text p := by
  obtain ⟨first, left, line, found, within⟩ := inside_bounds inside
  obtain ⟨below, -⟩ := List.getElem?_eq_some_iff.mp found
  rw [lines_length] at below
  obtain ⟨front, behind, whole, rfl⟩ := inside
  have boundary : Boundary text (size front) :=
    (boundary_iff text _).mpr ⟨front, behind, whole, rfl⟩
  exact {
    offset := ⟨size front, boundary_le boundary, boundary, positionAt_split whole⟩
    line := ⟨first, by omega⟩
    column := ⟨line, found, left, within⟩ }

/-! Parsing comes to an end. -/

theorem parse_mirrors {text : String} {rounds : Nat} (enough : size text.toList < rounds) :
    Mirrors text (fun read scanned => scanned = read) (Surface.parse text) (parse text rounds) := by
  have follows := Scanner.follows_program enough text.toList.length (Cursor.start text) 0
    (At.start text) Scanner.noToken (Nat.le_refl _)
  unfold Surface.parse parse
  cases read : Reader.program.run (Cursor.start text) with
  | error e =>
      rw [read] at follows
      obtain ⟨scanned, inside⟩ := follows
      rw [scanned]
      exact ⟨rfl, inside⟩
  | ok found =>
      rw [read] at follows
      obtain ⟨⟨objects, stop⟩, scanned, rfl, -⟩ := follows
      rw [scanned]
      exact ⟨_, rfl, rfl⟩

/-- With more rounds than the text has bytes a scan of the text neither panics nor runs out
of rounds: it finds the objects, or the fault in the text and the place of it, which reading
characters finds. -/
theorem parse_total (text : String) (rounds : Nat) (enough : text.utf8ByteSize < rounds) :
    ((∃ objects, parse text rounds = pure objects ∧ Surface.parse text = .ok objects) ∨
      ∃ e, parse text rounds = throw (.grammar e) ∧ Surface.parse text = .error e ∧
        Located text e.position) ∧
      Guarded text := by
  have mirrors := parse_mirrors (size_toList text ▸ enough)
  refine ⟨?_, ⟨fun _ => boundary_le, slice_panic_iff text, sliceFrom_panic_iff text,
    positionAt_panic_iff text⟩⟩
  cases read : Surface.parse text with
  | ok objects =>
      rw [read] at mirrors
      obtain ⟨_, scanned, rfl⟩ := mirrors
      exact .inl ⟨_, scanned, rfl⟩
  | error e =>
      rw [read] at mirrors
      obtain ⟨scanned, inside⟩ := mirrors
      exact .inr ⟨e, scanned, rfl, inside_located inside⟩

def leaflet : String := "// é\nobject at /a /* ü"

theorem leaflet_unclosed :
    leaflet.utf8ByteSize < 25 ∧
      parse leaflet 25 = throw (.grammar ⟨⟨2, 14⟩, "'*/'", "unterminated comment"⟩) ∧
      Located leaflet ⟨2, 14⟩ := by
  have enough : leaflet.utf8ByteSize < 25 := by decide
  have refused : Surface.parse leaflet = .error ⟨⟨2, 14⟩, "'*/'", "unterminated comment"⟩ := by
    cbv
  obtain ⟨⟨objects, -, read⟩ | ⟨e, scanned, read, located⟩, -⟩ := parse_total leaflet 25 enough
  · cases read.symm.trans refused
  · obtain rfl := Except.error.inj (read.symm.trans refused)
    exact ⟨enough, scanned, located⟩

end SimBus.Surface.Source
