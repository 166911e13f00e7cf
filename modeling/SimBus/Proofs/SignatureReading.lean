import SimBus.Proofs.SignatureRoundTrip
/-!
Which texts are signatures. Whatever the reader accepts is spelled by the type that it
finds, so it accepts the signatures of types whose dictionaries have basic keys, and
nothing else; and a list of types is read off their signatures, one behind the other,
and off nothing else.
-/

namespace SimBus.Ty

/-- The text begins with the letters of the type that was found, and ends in the rest. -/
def Spells (cs : List Char) (found : Ty × List Char) : Prop :=
  found.1.KeysBasic ∧ cs = found.1.letters ++ found.2

def SpellsMembers (cs : List Char) (found : List Ty × List Char) : Prop :=
  AllKeysBasic found.1 ∧ cs = lettersOfList found.1 ++ ')' :: found.2

theorem ofLetter?_letters (c : Char) (ty : Ty) (known : ofLetter? c = some ty) :
    ty.KeysBasic ∧ ty.letters = [c] := by
  unfold ofLetter? at known
  split at known
  all_goals cases known
  all_goals exact ⟨trivial, rfl⟩

theorem dict_spells (fuel : Nat) (cs : List Char)
    (inner : ∀ cs found, read fuel cs = .ok found → Spells cs found) (found : Ty × List Char)
    (accepted : read (fuel + 1) ('a' :: '{' :: cs) = .ok found) :
    Spells ('a' :: '{' :: cs) found := by
  rw [read] at accepted
  cases first : read fuel cs with
  | error fault => simp [first, bind, Except.bind] at accepted
  | ok keyFound =>
      obtain ⟨key, behindKey⟩ := keyFound
      obtain ⟨-, spelledKey⟩ := inner cs _ first
      by_cases basic : key.isBasic = true
      · cases second : read fuel behindKey with
        | error fault => simp [first, basic, second, bind, Except.bind] at accepted
        | ok valueFound =>
            obtain ⟨value, behindValue⟩ := valueFound
            obtain ⟨basicValue, spelledValue⟩ := inner behindKey _ second
            simp only [first, basic, second, bind, Except.bind, Bool.not_true, Bool.false_eq_true,
              ↓reduceIte] at accepted
            split at accepted
            · obtain rfl := Except.ok.inj accepted
              refine ⟨⟨basic, basicValue⟩, ?_⟩
              simp only at spelledKey spelledValue
              simp [letters, spelledKey, spelledValue]
            · cases accepted
      · simp [first, basic, bind, Except.bind, throw, throwThe, MonadExceptOf.throw] at accepted

theorem readMembers_spells (fuel : Nat) (cs : List Char)
    (inner : ∀ found, read fuel cs = .ok found → Spells cs found)
    (others : ∀ cs found, readMembers fuel cs = .ok found → SpellsMembers cs found)
    (found : List Ty × List Char)
    (accepted : (do
      let (member, rest) ← read fuel cs
      let (members, rest) ← readMembers fuel rest
      pure (member :: members, rest)) = Except.ok found) : SpellsMembers cs found := by
  cases first : read fuel cs with
  | error fault => simp [first, bind, Except.bind] at accepted
  | ok memberFound =>
      obtain ⟨basic, spelled⟩ := inner _ first
      cases second : readMembers fuel memberFound.2 with
      | error fault => simp [first, second, bind, Except.bind] at accepted
      | ok membersFound =>
          obtain ⟨basics, spelledRest⟩ := others memberFound.2 _ second
          simp only [first, second, bind, Except.bind] at accepted
          obtain rfl := Except.ok.inj accepted
          refine ⟨⟨basic, basics⟩, ?_⟩
          simp only [lettersOfList, List.append_assoc]
          rw [← spelledRest, ← spelled]

/-- What the reader finds is what the text spells, whatever fuel it is given. The cases
are those of its recursion. -/
theorem read_spells :
    (∀ fuel cs, ∀ found, read fuel cs = .ok found → Spells cs found) ∧
      ∀ fuel cs, ∀ found, readMembers fuel cs = .ok found → SpellsMembers cs found := by
  refine read.mutual_induct _ _ ?nothing ?starved ?entry ?array ?tuple ?letter ?unknown
    ?noMembers ?starvedMembers ?closed ?member
  case nothing =>
    intro fuel found accepted
    simp [read] at accepted
  case starved =>
    intro cs _ found accepted
    cases cs <;> simp [read] at accepted
  case entry =>
    intro fuel cs _ inner found accepted
    exact dict_spells fuel cs inner found accepted
  case array =>
    intro fuel cs notEntry inner found accepted
    rw [read] at accepted
    · cases element : read fuel cs with
      | error fault => simp [element, bind, Except.bind] at accepted
      | ok elementFound =>
          rw [element] at accepted
          obtain rfl := Except.ok.inj accepted
          obtain ⟨basic, spelled⟩ := inner _ element
          exact ⟨basic, congrArg ('a' :: ·) spelled⟩
    · exact notEntry
  case tuple =>
    intro fuel cs inner found accepted
    rw [read] at accepted
    cases members : readMembers fuel cs with
    | error fault => simp [members, bind, Except.bind] at accepted
    | ok membersFound =>
        rw [members] at accepted
        obtain rfl := Except.ok.inj accepted
        obtain ⟨basic, spelled⟩ := inner _ members
        refine ⟨basic, ?_⟩
        simp [letters, spelled]
  case letter =>
    intro fuel c cs notEntry notArray notTuple ty known found accepted
    simp only [read, known] at accepted
    obtain rfl := Except.ok.inj accepted
    obtain ⟨basic, spelled⟩ := ofLetter?_letters c ty known
    exact ⟨basic, by simp [spelled]⟩
  case unknown =>
    intro fuel c cs notEntry notArray notTuple unknown found accepted
    simp [read, unknown] at accepted
  case noMembers =>
    intro fuel found accepted
    simp [readMembers] at accepted
  case starvedMembers =>
    intro cs _ found accepted
    cases cs <;> simp [readMembers] at accepted
  case closed =>
    intro fuel cs found accepted
    obtain rfl := Except.ok.inj accepted
    exact ⟨trivial, rfl⟩
  case member =>
    intro fuel cs some notClosed inner others found accepted
    rw [readMembers] at accepted
    · exact readMembers_spells fuel cs inner others found accepted
    · exact some
    · exact notClosed

theorem readFront_spells (cs : List Char) (found : Ty × List Char)
    (accepted : readFront cs = .ok found) : Spells cs found :=
  read_spells.1 _ cs found accepted

theorem readAll_spells (fuel : Nat) (cs : List Char) (types : List Ty) (enough : cs.length ≤ fuel)
    (accepted : readAll fuel cs = .ok types) : AllKeysBasic types ∧ lettersOfList types = cs := by
  induction fuel generalizing cs types with
  | zero =>
      obtain rfl : cs = [] := List.eq_nil_of_length_eq_zero (Nat.le_zero.mp enough)
      obtain rfl := Except.ok.inj accepted
      exact ⟨trivial, rfl⟩
  | succ fuel ih =>
      cases cs with
      | nil =>
          obtain rfl := Except.ok.inj accepted
          exact ⟨trivial, rfl⟩
      | cons c rest =>
          rw [readAll] at accepted
          · cases first : readFront (c :: rest) with
            | error fault => simp [first, bind, Except.bind] at accepted
            | ok found =>
                obtain ⟨basic, spelled⟩ := readFront_spells _ _ first
                have shorter : found.2.length ≤ fuel := by
                  have sizes := congrArg List.length spelled
                  have positive := letters_length_pos found.1
                  simp only [List.length_cons, List.length_append] at sizes enough
                  omega
                cases second : readAll fuel found.2 with
                | error fault => simp [first, second, bind, Except.bind] at accepted
                | ok others =>
                    obtain ⟨basics, spelledRest⟩ := ih found.2 others shorter second
                    simp only [first, second, bind, Except.bind] at accepted
                    obtain rfl := Except.ok.inj accepted
                    exact ⟨⟨basic, basics⟩, by rw [lettersOfList, spelledRest, spelled]⟩
          · simp

theorem readFront_letters (ty : Ty) (rest : List Char) (basic : ty.KeysBasic) :
    readFront (ty.letters ++ rest) = .ok (ty, rest) :=
  read_letters ty _ rest basic (by simp only [List.length_append]; omega)

/-- Nothing separates the types of a list. No signature begins another, so each of them
ends where it should. -/
theorem readAll_letters (types : List Ty) (fuel : Nat) (basic : AllKeysBasic types)
    (enough : (lettersOfList types).length ≤ fuel) :
    readAll fuel (lettersOfList types) = .ok types := by
  induction types generalizing fuel with
  | nil => cases fuel <;> rfl
  | cons ty rest ih =>
      have positive := letters_length_pos ty
      simp only [lettersOfList, List.length_append] at enough
      obtain ⟨fuel, rfl⟩ : ∃ less, fuel = less + 1 := ⟨fuel - 1, by omega⟩
      have first := readFront_letters ty (lettersOfList rest) basic.1
      have others := ih fuel basic.2 (by omega)
      rw [lettersOfList, readAll]
      · simp [first, others, bind, Except.bind, pure, Except.pure]
      · intro empty
        have sizes := congrArg List.length empty
        simp only [List.length_append, List.length_nil] at sizes
        omega

theorem allKeysBasic_iff (types : List Ty) :
    AllKeysBasic types ↔ ∀ ty ∈ types, ty.KeysBasic := by
  induction types with
  | nil => simp [AllKeysBasic]
  | cons ty rest ih => simp [AllKeysBasic, ih]

theorem join_signatures (types : List Ty) :
    String.join (types.map signature) = String.ofList (lettersOfList types) := by
  induction types with
  | nil => rfl
  | cons ty rest ih =>
      rw [List.map_cons, String.join_cons, ih, signature, ← String.ofList_append, lettersOfList]

theorem parse_ok_iff (text : String) (ty : Ty) :
    parse text = .ok ty ↔ ty.KeysBasic ∧ ty.signature = text := by
  constructor
  · intro accepted
    unfold parse at accepted
    split at accepted
    · cases accepted
    · next found read =>
        obtain rfl := Except.ok.inj accepted
        obtain ⟨basic, spelled⟩ := readFront_spells _ _ read
        rw [List.append_nil] at spelled
        exact ⟨basic, by rw [signature, ← spelled, String.ofList_toList]⟩
    · cases accepted
  · rintro ⟨basic, rfl⟩
    exact parse_signature ty basic

theorem parseList_ok_iff (text : String) (types : List Ty) :
    parseList text = .ok types ↔
      (∀ ty ∈ types, ty.KeysBasic) ∧ String.join (types.map signature) = text := by
  rw [← allKeysBasic_iff, join_signatures]
  constructor
  · intro accepted
    unfold parseList at accepted
    split at accepted
    · cases accepted
    · next found read =>
        obtain rfl := Except.ok.inj accepted
        obtain ⟨basic, spelled⟩ := readAll_spells _ _ _ (Nat.le_refl _) read
        exact ⟨basic, by rw [spelled, String.ofList_toList]⟩
  · rintro ⟨basic, rfl⟩
    have whole := readAll_letters types _ basic (Nat.le_refl _)
    simp [parseList, whole]

/-- The texts that are accepted are the signatures of the types with basic keys, and
the lists of them put together, and each is read as what it was written for. -/
theorem signatures_exact :
    (∀ text ty, parse text = .ok ty ↔ ty.KeysBasic ∧ ty.signature = text) ∧
      ∀ text types, parseList text = .ok types ↔
        (∀ ty ∈ types, ty.KeysBasic) ∧ String.join (types.map signature) = text :=
  ⟨parse_ok_iff, parseList_ok_iff⟩

end SimBus.Ty
