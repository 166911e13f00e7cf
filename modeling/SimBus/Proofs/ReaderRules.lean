import SimBus.Proofs.SymbolReading
/-!
What readers make of symbols. A reader takes some symbols off what a text shows and
leaves the others; the rules say how the readers that the grammar is made of do so.
-/

namespace SimBus.Surface.Reader

variable {α β γ : Type}

/-- Wherever a text shows the symbols, the reader has a result and leaves the others. -/
def Reads (reader : Reader α) (before after : List Symbol) (result : α → Prop) : Prop :=
  ∀ cursor, Shows before cursor.rest →
    ∃ a next, reader.run cursor = .ok (a, next) ∧ result a ∧ Shows after next.rest

namespace Reads

theorem pure (a : α) (symbols : List Symbol) (result : α → Prop) (holds : result a) :
    Reads (pure a) symbols symbols result :=
  fun cursor shows => ⟨a, cursor, rfl, holds, shows⟩

theorem bind {reader : Reader α} {next : α → Reader β} {before middle after : List Symbol}
    {result : α → Prop} {final : β → Prop} (first : Reads reader before middle result)
    (second : ∀ a, result a → Reads (next a) middle after final) :
    Reads (reader >>= next) before after final := by
  intro cursor shows
  obtain ⟨a, between, read, holds, shown⟩ := first cursor shows
  obtain ⟨b, last, continued, done, left⟩ := second a holds between shown
  refine ⟨b, last, ?_, done, left⟩
  rw [StateT.run_bind, read]
  exact continued

theorem mono {reader : Reader α} {before after : List Symbol} {result weaker : α → Prop}
    (reads : Reads reader before after result) (weakens : ∀ a, result a → weaker a) :
    Reads reader before after weaker := by
  intro cursor shows
  obtain ⟨a, next, read, holds, shown⟩ := reads cursor shows
  exact ⟨a, next, read, weakens a holds, shown⟩

theorem whenTrue {condition : Reader Bool} {yes no : Reader α} {before middle after : List Symbol}
    {result : α → Prop} (holds : Reads condition before middle (· = true))
    (continued : Reads yes middle after result) :
    Reads (condition >>= fun answer => if answer = true then yes else no) before after result :=
  holds.bind fun answer yes => by rwa [if_pos yes]

theorem whenFalse {condition : Reader Bool} {yes no : Reader α} {before middle after : List Symbol}
    {result : α → Prop} (fails : Reads condition before middle (· = false))
    (continued : Reads no middle after result) :
    Reads (condition >>= fun answer => if answer = true then yes else no) before after result :=
  fails.bind fun answer no => by rwa [if_neg (Bool.eq_false_iff.mp no)]

end Reads

/-! Single symbols. -/

/-- A token stands next, and it is like this. -/
def Begins (symbols : List Symbol) (like : Token → Prop) : Prop :=
  ∃ token, nextToken symbols = some token ∧ like token

theorem skipping_run (next : Cursor → Reader α) (cursor skipped : Cursor)
    (skips : skipTrivia .blanks cursor.rest cursor.position = .ok skipped) :
    (do
      let cursor ← (← get).skip
      set cursor
      next cursor : Reader α).run cursor = (next skipped).run skipped := by
  simp only [StateT.run_bind, StateT.run_get, Cursor.skip, skips, pure_bind]
  rfl

theorem reads_peek (symbols : List Symbol) (token : Token) (next : nextToken symbols = some token) :
    Reads peek symbols symbols fun lexeme =>
      lexeme.token = token ∧ Shows symbols.tail lexeme.after.rest := by
  intro cursor shows
  obtain ⟨skipped, lexeme, skips, read, made, left, behind⟩ := shows.next token next cursor.position
  refine ⟨lexeme, skipped, ?_, ⟨made, behind⟩, left⟩
  rw [peek, skipping_run _ cursor skipped skips, read]
  rfl

theorem Reads.peeked {next : Lexeme → Reader α} {symbols after : List Symbol} {result : α → Prop}
    (token : Token) (first : nextToken symbols = some token)
    (continued : ∀ lexeme, lexeme.token = token → Shows symbols.tail lexeme.after.rest →
      Reads (next lexeme) symbols after result) :
    Reads (peek >>= next) symbols after result :=
  (reads_peek symbols token first).bind fun lexeme seen => continued lexeme seen.1 seen.2

theorem reads_take (lexeme : Lexeme) (before after : List Symbol)
    (shows : Shows after lexeme.after.rest) : Reads (take lexeme) before after fun _ => True :=
  fun _ _ => ⟨(), lexeme.after, rfl, trivial, shows⟩

theorem reads_remaining (symbols : List Symbol) :
    Reads remaining symbols symbols (symbols.length ≤ ·) :=
  fun cursor shows => ⟨cursor.rest.length, cursor, rfl, shows.length_le, shows⟩

theorem reads_nextIs (mark : Punct) (rest : List Symbol) :
    Reads (nextIs mark) (.punct mark :: rest) (.punct mark :: rest) (· = true) := by
  refine .peeked _ rfl fun lexeme made _ => ?_
  rw [made]
  exact .pure _ _ _ (beq_self_eq_true mark)

theorem reads_nextIs_other (mark : Punct) (symbols : List Symbol)
    (other : Begins symbols (· ≠ .punct mark)) :
    Reads (nextIs mark) symbols symbols (· = false) := by
  obtain ⟨token, next, different⟩ := other
  refine .peeked token next fun lexeme made _ => ?_
  rw [made]
  cases token with
  | punct found =>
      exact .pure _ _ _ (beq_eq_false_iff_ne.mpr fun same => different (congrArg _ same))
  | _ => exact .pure _ _ _ rfl

theorem reads_eat (mark : Punct) (rest : List Symbol) :
    Reads (eat mark) (.punct mark :: rest) rest (· = true) := by
  refine .peeked _ rfl fun lexeme made behind => ?_
  simp only [made, ↓reduceIte]
  exact (reads_take lexeme _ rest behind).bind fun _ _ => .pure _ _ _ rfl

theorem reads_eat_other (mark : Punct) (symbols : List Symbol)
    (other : Begins symbols (· ≠ .punct mark)) : Reads (eat mark) symbols symbols (· = false) := by
  obtain ⟨token, next, different⟩ := other
  refine .peeked token next fun lexeme made _ => ?_
  rw [made]
  cases token with
  | punct found =>
      have differs : found ≠ mark := fun same => different (congrArg _ same)
      simp only [differs, ↓reduceIte]
      exact .pure _ _ _ rfl
  | _ => exact .pure _ _ _ rfl

theorem reads_expect (mark : Punct) (rest : List Symbol) :
    Reads (expect mark) (.punct mark :: rest) rest fun _ => True := by
  refine .peeked _ rfl fun lexeme made behind => ?_
  simp only [made, ↓reduceIte]
  exact reads_take lexeme _ rest behind

theorem reads_eatWord (word : String) (rest : List Symbol) :
    Reads (eatWord word) (.word word :: rest) rest (· = true) := by
  refine .peeked _ rfl fun lexeme made behind => ?_
  simp only [made, ↓reduceIte]
  exact (reads_take lexeme _ rest behind).bind fun _ _ => .pure _ _ _ rfl

theorem reads_eatWord_other (word : String) (symbols : List Symbol)
    (other : Begins symbols (· ≠ .ident word)) :
    Reads (eatWord word) symbols symbols (· = false) := by
  obtain ⟨token, next, different⟩ := other
  refine .peeked token next fun lexeme made _ => ?_
  rw [made]
  cases token with
  | ident found =>
      have differs : found ≠ word := fun same => different (congrArg _ same)
      simp only [differs, ↓reduceIte]
      exact .pure _ _ _ rfl
  | _ => exact .pure _ _ _ rfl

theorem reads_expectWord (word : String) (rest : List Symbol) :
    Reads (expectWord word) (.word word :: rest) rest fun _ => True := by
  refine .peeked _ rfl fun lexeme made behind => ?_
  simp only [made, ↓reduceIte]
  exact (reads_take lexeme _ rest behind).bind fun _ _ => .pure _ _ _ trivial

theorem reads_name (what word : String) (rest : List Symbol) :
    Reads (name what) (.word word :: rest) rest (·.text = word) := by
  refine .peeked _ rfl fun lexeme made behind => ?_
  simp only [made]
  exact (reads_take lexeme _ rest behind).bind fun _ _ => .pure _ _ _ rfl

theorem reads_objectPath (path : String) (rest : List Symbol) :
    Reads objectPath (.path path :: rest) rest (· = path) := by
  intro cursor shows
  obtain ⟨radix, behind, q, skipped, written, separate, shown⟩ := shows.skip cursor.position
  obtain ⟨tail, text, inside, -⟩ := isWrittenPath_cases _ written
  have whole := separate_takeWhile isPathChar _ behind inside rfl separate
  have run : objectPath.run cursor =
      .ok (path, Cursor.advance path.toList.length ⟨path.toList ++ behind, q⟩) := by
    rw [objectPath, skipping_run _ cursor _ skipped]
    simp only [Symbol.spell]
    rw [text] at whole ⊢
    simp only [List.cons_append] at whole ⊢
    rw [whole, ← text, String.ofList_toList]
    rfl
  exact ⟨path, _, run, rfl, by rwa [advance_over]⟩

theorem reads_type (ty : Ty) (rest : List Symbol) :
    Reads type (.type ty :: rest) rest (· = ty) := by
  intro cursor shows
  obtain ⟨radix, behind, q, skipped, basic, separate, shown⟩ := shows.skip cursor.position
  obtain ⟨c, tail, text, begins⟩ := letters_begin ty
  have read := Ty.readFront_letters ty behind basic
  have size : (ty.letters ++ behind).length - behind.length = ty.letters.length := by
    rw [List.length_append, Nat.add_sub_cancel]
  have run : type.run cursor =
      .ok (ty, Cursor.advance ty.letters.length ⟨ty.letters ++ behind, q⟩) := by
    rw [type, skipping_run _ cursor _ skipped]
    simp only [Symbol.spell]
    rw [text] at read size ⊢
    simp only [List.cons_append] at read size ⊢
    simp only [begins, ↓reduceIte, read, size]
    cases behind with
    | nil => rfl
    | cons next more =>
        -- A type ends where a name would end, at the blank behind it.
        have apart : isNameChar next = false :=
          isBlank_without isNameChar rfl next (separate next more rfl)
        show StateT.run (if isNameChar next = true then _ else _) _ = _
        rw [if_neg (Bool.eq_false_iff.mp apart)]
        rfl
  exact ⟨ty, _, run, rfl, by rwa [advance_over]⟩

/-! Lists. -/

/-- What a list of items is read as, if `symbols` stands for each item and `apart` for what
has to follow it. -/
theorem reads_collect (step : Reader (Option α)) (symbols : β → List Symbol) (view : α → γ)
    (meaning : β → γ) (apart : List Symbol → Prop) (items : List β) (tail final : List Symbol)
    (bound : Nat)
    (taken : ∀ item ∈ items, ∀ rest, apart rest → Reads step (symbols item ++ rest) rest
      fun found => ∃ a, found = some a ∧ view a = meaning item)
    (begins : ∀ item ∈ items, ∀ rest, apart (symbols item ++ rest)) (stops : apart tail)
    (ended : Reads step tail final (· = none)) (enough : items.length ≤ bound) :
    Reads (collect step bound) (items.flatMap symbols ++ tail) final
      fun found => found.map view = items.map meaning := by
  induction items generalizing bound with
  | nil => cases bound <;> exact ended.bind fun _ none => none ▸ .pure _ _ _ rfl
  | cons item rest ih =>
      obtain ⟨bound, rfl⟩ : ∃ less, bound = less + 1 := ⟨bound - 1, by simp at enough; omega⟩
      obtain ⟨takenFirst, takenRest⟩ := List.forall_mem_cons.mp taken
      obtain ⟨-, beginsRest⟩ := List.forall_mem_cons.mp begins
      -- Behind the first item there is another one, or what follows them all.
      have follows : apart (rest.flatMap symbols ++ tail) := by
        cases rest with
        | nil => exact stops
        | cons next more =>
            rw [List.flatMap_cons, List.append_assoc]
            exact beginsRest next List.mem_cons_self _
      rw [List.flatMap_cons, List.append_assoc]
      refine (takenFirst _ follows).bind ?_
      rintro _ ⟨a, rfl, same⟩
      refine (ih bound takenRest beginsRest (Nat.le_of_succ_le_succ enough)).bind
        fun others read => ?_
      exact .pure _ _ _ (by rw [List.map_cons, same, read, List.map_cons])

theorem length_le_flatMap (symbols : β → List Symbol) (items : List β)
    (some : ∀ item ∈ items, symbols item ≠ []) : items.length ≤ (items.flatMap symbols).length := by
  induction items with
  | nil => exact Nat.zero_le _
  | cons item rest ih =>
      obtain ⟨first, others⟩ := List.forall_mem_cons.mp some
      have positive := List.length_pos_iff.mpr first
      have shorter := ih others
      rw [List.flatMap_cons, List.length_append, List.length_cons]
      omega

theorem length_flatMap_le (symbols : β → List Symbol) (items : List β) (item : β)
    (member : item ∈ items) : (symbols item).length ≤ (items.flatMap symbols).length := by
  rw [List.flatMap_def]
  exact (List.sublist_flatten_of_mem (List.mem_map_of_mem member)).length_le

theorem intercalate_cons {δ : Type} (separator first : List δ) (others : List (List δ)) :
    separator.intercalate (first :: others) = first ++ others.flatMap (separator ++ ·) := by
  induction others generalizing first with
  | nil => simp
  | cons next rest ih => rw [List.intercalate_cons_cons, ih, List.flatMap_cons, List.append_assoc,
      List.append_assoc]

def dottedPart (part : List Char) : List Symbol := [.punct .dot, .word (String.ofList part)]

theorem dotted_parts (name : String) :
    ∃ (first : List Char) (others : List (List Char)),
      dotted name = .word (String.ofList first) :: others.flatMap dottedPart ∧
      ".".intercalate (String.ofList first :: others.map String.ofList) = name := by
  obtain ⟨first, others, split⟩ := List.exists_cons_of_ne_nil (List.splitOn_ne_nil '.' name.toList)
  refine ⟨first, others, ?_, ?_⟩
  · rw [dotted, split, List.map_cons, intercalate_cons, List.flatMap_map]
    rfl
  · refine String.toList_injective ?_
    have joined : ['.'].intercalate (name.toList.splitOn '.') = name.toList :=
      List.intercalate_splitOn '.'
    rw [split] at joined
    simpa [String.toList_intercalate] using joined

theorem reads_dottedName (what name : String) (rest : List Symbol)
    (apart : Begins rest (· ≠ .punct .dot)) :
    Reads (dottedName what) (dotted name ++ rest) rest (·.text = name) := by
  obtain ⟨first, others, symbols, whole⟩ := dotted_parts name
  rw [symbols, List.cons_append]
  refine (reads_name what _ _).bind fun start begun => ?_
  -- The reader goes round as often as there are characters left, so often enough.
  refine (reads_remaining _).bind fun bound enough => ?_
  have sizes := length_le_flatMap dottedPart others (by simp [dottedPart])
  refine (reads_collect _ dottedPart id String.ofList (fun _ => True) others rest rest bound
    ?_ (fun _ _ _ => trivial) trivial ?_ ?_).bind fun parts read => ?_
  · intro part _ more _
    refine .whenTrue (reads_eat .dot _) ?_
    exact (reads_name what _ more).bind fun part same => .pure _ _ _ ⟨_, rfl, same⟩
  · exact .whenFalse (reads_eat_other .dot rest apart) (.pure _ _ _ rfl)
  · simp only [List.length_append] at enough
    omega
  · rw [List.map_id] at read
    exact .pure _ _ _ (by rw [begun, read, whole])

/-! Items with commas between them. -/

/-- No operator that binds at the level or more tightly stands next, and no bracket. -/
def Stops (level : Nat) (symbols : List Symbol) : Prop :=
  Begins symbols fun token =>
    ∀ mark, token = .punct mark → mark ≠ .lparen ∧ ∀ l ∈ levels.drop level, l mark = none

def opensOperand : Punct → Bool
  | .lparen | .lbracket | .lbrace | .lt | .bang | .minus | .at => true
  | _ => false

def Opening (token : Token) : Prop := ∀ mark, token = .punct mark → opensOperand mark = true

def closesItems : Punct → Bool
  | .rparen | .rbracket | .rbrace => true
  | _ => false

theorem stops_mark (level : Nat) (mark : Punct) (rest : List Symbol) (apart : mark ≠ .lparen)
    (loose : ∀ l ∈ levels.drop level, l mark = none) : Stops level (.punct mark :: rest) :=
  ⟨_, rfl, fun _ same => Token.punct.inj same ▸ ⟨apart, loose⟩⟩

theorem begins_mark {mark other : Punct} (rest : List Symbol) (differs : mark ≠ other) :
    Begins (.punct mark :: rest) (· ≠ .punct other) :=
  ⟨_, rfl, fun same => differs (Token.punct.inj same)⟩

theorem begins_word (word : String) (rest : List Symbol) (mark : Punct) :
    Begins (.word word :: rest) (· ≠ .punct mark) :=
  ⟨.ident word, rfl, fun same => by cases same⟩

theorem begins_noWord (mark : Punct) (rest : List Symbol) (word : String) :
    Begins (.punct mark :: rest) (· ≠ .ident word) :=
  ⟨.punct mark, rfl, fun same => by cases same⟩

theorem begins_otherWord {word other : String} (rest : List Symbol) (differs : word ≠ other) :
    Begins (.word word :: rest) (· ≠ .ident other) :=
  ⟨_, rfl, fun same => differs (Token.ident.inj same)⟩

theorem Begins.mono {symbols : List Symbol} {like weaker : Token → Prop}
    (begins : Begins symbols like) (weakens : ∀ token, like token → weaker token) :
    Begins symbols weaker := by
  obtain ⟨token, next, holds⟩ := begins
  exact ⟨token, next, weakens token holds⟩

section Items

variable (item : Reader α) (symbols : β → List Symbol) (view : α → γ) (meaning : β → γ)

/-- The symbols are read as what they mean wherever the item may end, and begin as an
item does. -/
structure ReadsItem (x : β) : Prop where
  reads : ∀ rest, Stops 0 rest → Reads item (symbols x ++ rest) rest (view · = meaning x)
  opens : ∀ rest, Begins (symbols x ++ rest) Opening

variable {item symbols view meaning}

theorem Begins.other {symbols : List Symbol} (opens : Begins symbols Opening) (mark : Punct)
    (other : opensOperand mark = false) : Begins symbols (· ≠ .punct mark) :=
  opens.mono fun _ opening same => by simp [opening mark same] at other

theorem commaSeparated_length (parts : List (List Symbol)) :
    parts.length ≤ (commaSeparated parts).length + 1 := by
  cases parts with
  | nil => exact Nat.zero_le _
  | cons first others =>
      have sizes := length_le_flatMap ([Symbol.punct .comma] ++ ·) others (by simp)
      rw [commaSeparated, intercalate_cons, List.length_append, List.length_cons]
      omega

theorem ReadsItem.list_opens {x : β} (readsItem : ReadsItem item symbols view meaning x)
    (others : List β) (rest : List Symbol) :
    Begins (commaSeparated ((x :: others).map symbols) ++ rest) Opening := by
  rw [commaSeparated, List.map_cons, intercalate_cons, List.append_assoc]
  exact readsItem.opens _

theorem stops_comma (rest : List Symbol) : Stops 0 (.punct .comma :: rest) :=
  stops_mark 0 .comma rest (by decide) (by decide)

theorem closesItems_cases (close : Punct) (closes : closesItems close = true) (rest : List Symbol) :
    Stops 0 (.punct close :: rest) ∧ opensOperand close = false ∧ close ≠ .comma := by
  cases close with
  | rparen | rbracket | rbrace =>
      exact ⟨stops_mark 0 _ rest (by decide) (by decide), rfl, by decide⟩
  | _ => cases closes

theorem commaSeparated_member (parts : List (List Symbol)) (part : List Symbol)
    (member : part ∈ parts) : part.length ≤ (commaSeparated parts).length := by
  cases parts with
  | nil => cases member
  | cons first others =>
      rw [commaSeparated, intercalate_cons, List.length_append]
      rcases List.mem_cons.mp member with rfl | later
      · omega
      · have shorter := length_flatMap_le ([Symbol.punct .comma] ++ ·) others part later
        rw [List.length_append] at shorter
        omega

theorem length_le_commaSeparated (items : List β) (close : Punct) (rest : List Symbol) :
    items.length ≤ (commaSeparated (items.map symbols) ++ .punct close :: rest).length := by
  have sizes := commaSeparated_length (items.map symbols)
  rw [List.length_map] at sizes
  rw [List.length_append, List.length_cons]
  omega

theorem reads_commaList (close : Punct) (closes : closesItems close = true) (items : List β)
    (bound : Nat) (rest : List Symbol) (all : ∀ x ∈ items, ReadsItem item symbols view meaning x)
    (enough : items.length ≤ bound) :
    Reads (commaList close item bound)
      (commaSeparated (items.map symbols) ++ .punct close :: rest) rest
      fun found => found.map view = items.map meaning := by
  obtain ⟨stops, noItem, noComma⟩ := closesItems_cases close closes rest
  induction items generalizing bound with
  | nil => cases bound <;> exact .whenTrue (reads_eat close rest) (.pure _ _ _ rfl)
  | cons x others ih =>
      obtain ⟨bound, rfl⟩ : ∃ less, bound = less + 1 := ⟨bound - 1, by simp at enough; omega⟩
      obtain ⟨first, more⟩ := List.forall_mem_cons.mp all
      have shorter := Nat.le_of_succ_le_succ enough
      cases others with
      | nil =>
          simp only [List.map_cons, List.map_nil, commaSeparated, List.intercalate_singleton]
          refine .whenFalse (reads_eat_other close _ ((first.opens _).other close noItem)) ?_
          refine (first.reads _ stops).bind fun a same => ?_
          refine .whenFalse (reads_eat_other .comma _ (begins_mark rest noComma)) ?_
          exact (reads_expect close rest).bind fun _ _ => .pure _ _ _ (by simp [same])
      | cons y others =>
          simp only [List.map_cons, commaSeparated, List.intercalate_cons_cons, List.append_assoc,
            List.singleton_append]
          refine .whenFalse (reads_eat_other close _ ((first.opens _).other close noItem)) ?_
          refine (first.reads _ (stops_comma _)).bind fun a same => ?_
          refine .whenTrue (reads_eat .comma _) ?_
          refine (ih bound more shorter).bind fun found read => .pure _ _ _ ?_
          rw [List.map_cons, same, read, List.map_cons]

theorem reads_argumentTail (x : β) (others : List β) (bound : Nat) (rest : List Symbol)
    (all : ∀ y ∈ x :: others, ReadsItem item symbols view meaning y)
    (enough : others.length < bound) :
    Reads (argumentTail item bound)
      (commaSeparated ((x :: others).map symbols) ++ .punct .rparen :: rest) rest
      fun found => found.map view = (x :: others).map meaning := by
  obtain ⟨stops, -, noComma⟩ := closesItems_cases .rparen rfl rest
  induction others generalizing x bound with
  | nil =>
      obtain ⟨bound, rfl⟩ := Nat.exists_eq_add_one_of_ne_zero (Nat.ne_zero_of_lt enough)
      obtain ⟨first, -⟩ := List.forall_mem_cons.mp all
      simp only [List.map_cons, List.map_nil, commaSeparated, List.intercalate_singleton]
      refine (first.reads _ stops).bind fun a same => ?_
      exact .whenTrue (reads_eat .rparen rest) (.pure _ _ _ (by simp [same]))
  | cons y others ih =>
      obtain ⟨bound, rfl⟩ := Nat.exists_eq_add_one_of_ne_zero (Nat.ne_zero_of_lt enough)
      obtain ⟨first, more⟩ := List.forall_mem_cons.mp all
      obtain ⟨second, -⟩ := List.forall_mem_cons.mp more
      have read := ih y bound more (Nat.lt_of_succ_lt_succ enough)
      have nextOpens := (second.list_opens others (.punct .rparen :: rest)).other .rparen rfl
      simp only [List.map_cons, commaSeparated, List.intercalate_cons_cons, List.append_assoc,
        List.singleton_append] at read nextOpens ⊢
      refine (first.reads _ (stops_comma _)).bind fun a same => ?_
      refine .whenFalse (reads_eat_other .rparen _ (begins_mark _ (by decide))) ?_
      refine (reads_expect .comma _).bind fun _ _ => ?_
      refine .whenFalse (reads_eat_other .rparen _ nextOpens) ?_
      refine read.bind fun found same' => .pure _ _ _ ?_
      rw [List.map_cons, same, same']

theorem reads_argumentList (items : List β) (rest : List Symbol)
    (all : ∀ x ∈ items, ReadsItem item symbols view meaning x) :
    Reads (argumentList item) (argumentSymbols (items.map symbols) ++ rest) rest
      fun found => found.map view = items.map meaning := by
  rw [argumentSymbols, enclosed, List.cons_append, List.append_assoc, List.singleton_append]
  refine (reads_expect .lparen _).bind fun _ _ => ?_
  cases items with
  | nil => exact .whenTrue (reads_eat .rparen rest) (.pure _ _ _ rfl)
  | cons x others =>
      have first := all x List.mem_cons_self
      refine .whenFalse
        (reads_eat_other .rparen _ ((first.list_opens others _).other .rparen rfl)) ?_
      refine (reads_remaining _).bind fun bound enough => ?_
      exact reads_argumentTail x others bound rest all
        (Nat.le_trans (length_le_commaSeparated (x :: others) .rparen rest) enough)

end Items

end SimBus.Surface.Reader
