import SimBus.Proofs.ByteTypes
/-!
Readers that move an offset. They look at a token anew whenever they are asked for one,
and nothing bounds how often they do. A scanner follows a reader if from where the
cursor stands it comes to the same end at the same place.
-/

namespace SimBus.Surface

abbrev Scanner := StateT Nat Scan

open Source (Span At Stands Mirrors Inside positionAt)

namespace Scanner

variable {α β : Type}

section

variable (text : String) (rounds : Nat)

def position (offset : Nat) : Scanner Position := positionAt text offset

def fail (offset : Nat) (expected found : String) : Scanner α :=
  (Source.syntaxError text offset expected found : Scan α)

/-- The next token. It is not taken; the offset moves behind the blanks and comments
before it. -/
def peek : Scanner Span := do
  let start ← Source.skip text rounds (← get)
  set start
  Source.token text rounds start

def bump : Scanner Span := do
  let span ← peek text rounds
  set span.stop
  pure span

def unexpected (span : Span) (expected : String) : Scanner α :=
  fail text span.start expected span.token.describe

def nextIs (mark : Punct) : Scanner Bool := do
  match (← peek text rounds).token with
  | .punct found => pure (found == mark)
  | _ => pure false

def nextIsWord (word : String) : Scanner Bool := do
  match (← peek text rounds).token with
  | .ident name => pure (name == word)
  | _ => pure false

def eat (mark : Punct) : Scanner Bool := do
  if ← nextIs text rounds mark then
    let _ ← bump text rounds
    pure true
  else pure false

def eatWord (word : String) : Scanner Bool := do
  if ← nextIsWord text rounds word then
    let _ ← bump text rounds
    pure true
  else pure false

def expect (mark : Punct) : Scanner Unit := do
  let span ← peek text rounds
  match span.token with
  | .punct found =>
      if found = mark then
        let _ ← bump text rounds
        let _ ← position text span.start
        pure ()
      else unexpected text span ("'" ++ mark.text ++ "'")
  | _ => unexpected text span ("'" ++ mark.text ++ "'")

def expectWord (word : String) : Scanner Position := do
  let span ← peek text rounds
  match span.token with
  | .ident name =>
      if name = word then
        let _ ← bump text rounds
        position text span.start
      else unexpected text span ("'" ++ word ++ "'")
  | _ => unexpected text span ("'" ++ word ++ "'")

def name (what : String) : Scanner Name := do
  let span ← peek text rounds
  match span.token with
  | .ident name =>
      let _ ← bump text rounds
      let start ← position text span.start
      pure ⟨name, start⟩
  | _ => unexpected text span what

def many (step : Scanner (Option α)) : (rounds : Nat) → Scanner (List α)
  | 0 => (throw .exhausted : Scan _)
  | rounds + 1 => do
      match ← step with
      | none => pure []
      | some item => do
          let items ← many step rounds
          pure (item :: items)

def dottedName (what : String) : Scanner Name := do
  let first ← name text rounds what
  let others ← many (do
      if ← eat text rounds .dot then
        let part ← name text rounds what
        pure (some part.text)
      else pure none)
    rounds
  pure ⟨".".intercalate (first.text :: others), first.position⟩

def objectPath : Scanner String := do
  let start ← Source.skip text rounds (← get)
  set start
  if Source.has text (· == '/') start then
    let stop ← Source.run text Reader.isPathChar rounds start
    set stop
    let path ← Source.slice text start stop
    pure (String.ofList path)
  else
    let span ← peek text rounds
    fail text start "an object path" span.token.describe

def typeAt (start : Nat) : Scan (Ty × Nat) := do
  match ← (Source.signature text rounds rounds start).run with
  | .ok found => pure found
  | .error reason => Source.syntaxError text start "a type signature" reason

def type : Scanner Ty := do
  let start ← Source.skip text rounds (← get)
  set start
  if Source.has text Ty.startsWith start then
    let (ty, stop) ← typeAt text rounds start
    match Source.byte? text stop with
    | some byte =>
        if Source.byteIs isNameChar byte then
          fail text stop "end of type signature"
            ("'" ++ String.singleton (Char.ofNat byte.toNat) ++ "'")
        else
          set stop
          pure ty
    | none =>
        set stop
        pure ty
  else
    let span ← peek text rounds
    fail text start "a type signature" span.token.describe

end

theorem run_scan (scan : Scan α) (i : Nat) :
    (liftM scan : Scanner α).run i = scan >>= fun a => Pure.pure (a, i) := rfl

theorem run_peek (text : String) (rounds i : Nat) :
    (peek text rounds).run i = Source.skip text rounds i >>= fun start =>
      Source.token text rounds start >>= fun span => Pure.pure (span, start) := by
  simp only [peek, StateT.run_bind, StateT.run_get, StateT.run_set, run_scan, bind_assoc, pure_bind]

/-- The cursor stands at this token, with no blanks or comments before it. -/
def Looks (seen : Option Lexeme) (c : Cursor) : Prop :=
  ∀ lexeme ∈ seen, c.skip = .ok c ∧ readToken c = .ok lexeme

theorem noToken {c : Cursor} : Looks none c := by
  intro lexeme same
  cases same

/-- From where the cursor stands, at the token that has been seen if there is one and with
at most `bound` characters left, the scanner comes to what the reader comes to, and at least
so many characters have been taken then. -/
def Follows (text : String) (seen : Option Lexeme) (bound : Nat) (least : α → Nat)
    (reader : Reader α) (scanner : Scanner α) : Prop :=
  ∀ c i, At text c i → Looks seen c → c.rest.length ≤ bound →
    Mirrors text (fun read scanned => scanned.1 = read.1 ∧ At text read.2 scanned.2 ∧
      read.2.rest.length + least read.1 ≤ c.rest.length) (reader.run c) (scanner.run i)

variable {text : String} {rounds : Nat} {seen : Option Lexeme} {bound : Nat} {least : α → Nat}

namespace Follows

theorem pure (a : α) (nothing : least a = 0) :
    Follows text seen bound least (Pure.pure a) (Pure.pure a) := by
  intro c i here _ _
  exact ⟨(a, i), rfl, rfl, here, by simp [nothing]⟩

theorem mono {few : Nat} {fewer : α → Nat} {reader : Reader α} {scanner : Scanner α}
    (follows : Follows text seen bound least reader scanner) (short : few ≤ bound)
    (less : ∀ a, fewer a ≤ least a) : Follows text seen few fewer reader scanner := by
  intro c i here looks left
  refine (follows c i here looks (Nat.le_trans left short)).mono fun read scanned alike => ?_
  obtain ⟨same, there, took⟩ := alike
  exact ⟨same, there, Nat.le_trans (Nat.add_le_add_left (less read.1) _) took⟩

theorem shrink {few : Nat} {reader : Reader α} {scanner : Scanner α}
    (follows : Follows text seen bound least reader scanner) (short : few ≤ bound) :
    Follows text seen few least reader scanner :=
  follows.mono short fun a => Nat.le_refl (least a)

theorem stay {reader : Reader α} {scanner : Scanner α}
    (follows : Follows text none bound least reader scanner) :
    Follows text seen bound least reader scanner := by
  intro c i here _ left
  exact follows c i here noToken left

theorem congr {reader reader' : Reader α} {scanner : Scanner α}
    (follows : Follows text none bound least reader' scanner)
    (same : ∀ c : Cursor, c.rest.length ≤ bound → reader.run c = reader'.run c) :
    Follows text none bound least reader scanner := by
  intro c i here looks left
  rw [same c left]
  exact follows c i here looks left

/-- What comes behind some reader may rely on there having been what it took. -/
theorem bindTaken {taken : α → Nat} {least : β → Nat} {reader : Reader α} {scanner : Scanner α}
    {next : α → Reader β} {next' : α → Scanner β}
    (first : Follows text seen bound taken reader scanner)
    (second : ∀ a, taken a ≤ bound →
      Follows text none (bound - taken a) (fun b => least b - taken a) (next a) (next' a)) :
    Follows text seen bound least (reader >>= next) (scanner >>= next') := by
  intro c i here looks left
  rw [StateT.run_bind, StateT.run_bind]
  refine (first c i here looks left).bind fun read scanned _ alike => ?_
  obtain ⟨a, d⟩ := read
  obtain ⟨b, j⟩ := scanned
  obtain ⟨rfl, there, took⟩ := alike
  simp only at took
  refine (second b (by omega) d j there noToken (by omega)).mono fun read scanned alike => ?_
  obtain ⟨same, there, took'⟩ := alike
  refine ⟨same, there, ?_⟩
  simp only at took'
  omega

theorem bind {taken : α → Nat} {reader : Reader α} {scanner : Scanner α}
    {next : α → Reader β} {next' : α → Scanner β}
    (first : Follows text seen bound taken reader scanner)
    (second : ∀ a, Follows text none (bound - taken a) (fun _ => 0) (next a) (next' a)) :
    Follows text seen bound (fun _ => 0) (reader >>= next) (scanner >>= next') :=
  bindTaken first fun a _ => (second a).mono (Nat.le_refl _) fun _ => by simp

theorem lead {reader : Reader α} {scanner : Scanner α} {next : α → Reader β}
    {next' : α → Scanner β} (first : Follows text seen bound (fun _ => 1) reader scanner)
    (second : ∀ a, Follows text none (bound - 1) (fun _ => 0) (next a) (next' a)) :
    Follows text seen bound (fun _ => 1) (reader >>= next) (scanner >>= next') :=
  bindTaken first fun a _ => second a

theorem ite {p : Prop} [Decidable p] {yes no : Reader α} {yes' no' : Scanner α}
    (holds : p → Follows text seen bound least yes yes')
    (fails : ¬ p → Follows text seen bound least no no') :
    Follows text seen bound least (if p then yes else no) (if p then yes' else no') := by
  by_cases decided : p
  · simpa only [decided, ↓reduceIte] using holds decided
  · simpa only [decided, ↓reduceIte] using fails decided

structure Placed (text : String) (p : Position) (offset : Nat) : Prop where
  place : positionAt text offset = Pure.pure p
  inside : Inside text p

theorem placed {c : Cursor} {i : Nat} (here : At text c i) : Placed text c.position i :=
  ⟨here.position, here.inside⟩

theorem fail {p : Position} {offset : Nat} (placed : Placed text p offset)
    (expected found : String) :
    Follows text seen bound least (Reader.fail p expected found)
      (Scanner.fail text offset expected found) := by
  intro c i _ _ _
  refine ⟨?_, placed.inside⟩
  show StateT.run (StateT.lift (Source.syntaxError text offset expected found)) i = _
  rw [StateT.run_lift, Source.syntaxError, placed.place, pure_bind]
  rfl

theorem position {p : Position} {offset : Nat} (placed : Placed text p offset) :
    Scanner.position text offset = Pure.pure p := by
  show StateT.lift (positionAt text offset) = _
  rw [placed.place]
  rfl

theorem going {lexeme : Lexeme} {stop : Nat} {next : Reader α} {next' : Scanner α}
    (there : At text lexeme.after stop)
    (behind : Source.tokenLeast lexeme.token ≤ bound →
      Follows text none (bound - Source.tokenLeast lexeme.token)
        (fun a => least a - Source.tokenLeast lexeme.token) next next') :
    Follows text (some lexeme) bound least (Reader.take lexeme >>= fun _ => next)
      (set stop >>= fun _ => next') := by
  intro c i _ looks left
  have takes := Source.readToken_least c lexeme (looks lexeme rfl).2
  rw [StateT.run_bind, StateT.run_bind, StateT.run_set, pure_bind]
  refine (behind (by omega) lexeme.after stop there noToken (by omega)).mono
    fun read scanned alike => ?_
  obtain ⟨same, there, took⟩ := alike
  refine ⟨same, there, ?_⟩
  simp only at took
  omega

section

variable (enough : size text.toList < rounds)
include enough

/-- Both look at the next token; what follows knows it, and may take it. -/
theorem look {next : Lexeme → Reader α} {next' : Span → Scanner α}
    (continued : ∀ token p start after stop, Placed text p start → At text after stop →
      Follows text (some ⟨token, p, after⟩) bound least (next ⟨token, p, after⟩)
        (next' ⟨token, start, stop⟩)) :
    Follows text none bound least (Reader.peek >>= next) (peek text rounds >>= next') := by
  intro c i here _ left
  rw [StateT.run_bind, StateT.run_bind, Reader.run_peek, run_peek]
  simp only [bind_assoc]
  refine (Source.skip_mirrors enough here).bind fun d j skips there => ?_
  have scanned := Source.token_mirrors enough there
  cases read : readToken d with
  | error e =>
      rw [read] at scanned
      obtain ⟨failed, inside⟩ := scanned
      rw [failed]
      exact ⟨rfl, inside⟩
  | ok lexeme =>
      obtain ⟨token, p, after⟩ := lexeme
      rw [read] at scanned
      obtain ⟨⟨same, start, stop⟩, found, rfl, rfl, behind⟩ := scanned
      obtain ⟨rfl, -⟩ := readToken_moves d _ read
      rw [found, pure_bind, pure_bind]
      have shorter := Cursor.moves_length (Cursor.moves_skip c d skips)
      have known : Looks (some ⟨same, d.position, after⟩) d := by
        rintro _ ⟨⟩
        exact ⟨Cursor.skip_again c d skips, read⟩
      refine (continued same d.position _ after stop (placed there) behind d _ there known
        (Nat.le_trans shorter left)).mono fun read scanned alike => ?_
      exact ⟨alike.1, alike.2.1, Nat.le_trans alike.2.2 shorter⟩

theorem run_bump {c : Cursor} {i : Nat} {lexeme : Lexeme} (here : At text c i)
    (looks : Looks (some lexeme) c) :
    ∃ span, (bump text rounds).run i = Pure.pure (span, span.stop) ∧
      At text lexeme.after span.stop := by
  obtain ⟨skips, read⟩ := looks lexeme rfl
  have skipped := Source.skip_mirrors enough here
  have scanned := Source.token_mirrors enough here
  rw [skips] at skipped
  rw [read] at scanned
  obtain ⟨j, skipped, there⟩ := skipped
  obtain rfl := here.unique there
  obtain ⟨span, scanned, -, -, behind⟩ := scanned
  refine ⟨span, ?_, behind⟩
  rw [bump, StateT.run_bind, run_peek, skipped, pure_bind, scanned]
  rfl

theorem taking {lexeme : Lexeme} {next : Reader α} {next' : Scanner α}
    (behind : Source.tokenLeast lexeme.token ≤ bound →
      Follows text none (bound - Source.tokenLeast lexeme.token)
        (fun a => least a - Source.tokenLeast lexeme.token) next next') :
    Follows text (some lexeme) bound least (Reader.take lexeme >>= fun _ => next)
      (bump text rounds >>= fun _ => next') := by
  intro c i here looks left
  obtain ⟨span, bumped, there⟩ := run_bump enough here looks
  have takes := Source.readToken_least c lexeme (looks lexeme rfl).2
  rw [StateT.run_bind, StateT.run_bind, bumped, pure_bind]
  refine (behind (by omega) lexeme.after span.stop there noToken (by omega)).mono
    fun read scanned alike => ?_
  obtain ⟨same, there, took⟩ := alike
  refine ⟨same, there, ?_⟩
  simp only at took
  omega

/-- What is left of the text bounds what comes, and so do the rounds. -/
theorem counting {next : Nat → Reader α} {scanner : Scanner α}
    (continued : ∀ left ≤ bound, left < rounds → Follows text none left least (next left) scanner) :
    Follows text none bound least (Reader.remaining >>= next) scanner := by
  intro c i here _ left
  exact continued c.rest.length left (here.stands.length_le.trans_lt enough) c i here
    noToken (Nat.le_refl _)

end

end Follows

/-! Items. -/

def itemLeast : Option α → Nat
  | some _ => 1
  | none => 0

theorem follows_many {step : Reader (Option α)} {step' : Scanner (Option α)} {bound : Nat}
    (single : Follows text none bound itemLeast step step') (count rounds : Nat)
    (enough : bound ≤ count) (fewer : bound < rounds) :
    Follows text none bound (fun _ => 0) (Reader.collect step count) (many step' rounds) := by
  induction count generalizing bound rounds with
  | zero =>
      obtain ⟨rounds, rfl⟩ := Nat.exists_eq_add_one_of_ne_zero (Nat.ne_zero_of_lt fewer)
      refine .bindTaken single fun found took => ?_
      cases found with
      | none => exact .pure _ rfl
      | some item => exact absurd (Nat.le_trans took enough) (Nat.not_succ_le_zero 0)
  | succ count ih =>
      obtain ⟨rounds, rfl⟩ := Nat.exists_eq_add_one_of_ne_zero (Nat.ne_zero_of_lt fewer)
      refine .bindTaken single fun found took => ?_
      cases found with
      | none => exact .pure _ rfl
      | some item =>
          simp only [itemLeast] at took ⊢
          refine .bind (ih (single.shrink (Nat.sub_le bound 1)) rounds ?_ ?_) fun items =>
            .pure _ rfl
          · exact Nat.sub_le_of_le_add enough
          · omega

theorem follows_item {condition : Reader Bool} {condition' : Scanner Bool}
    {item : Reader (Option α)} {item' : Scanner (Option α)} {bound : Nat}
    (eats : Follows text none bound Bool.toNat condition condition')
    (single : Follows text none (bound - 1) (fun _ => 0) item item') :
    Follows text none bound itemLeast
      (condition >>= fun more => if more = true then item else pure none)
      (condition' >>= fun more => if more = true then item' else pure none) := by
  refine .bindTaken eats fun more _ => ?_
  cases more with
  | false => exact .pure none rfl
  | true => exact single.mono (Nat.le_refl _) fun found => by cases found <;> exact Nat.le_refl 0

theorem follows_unexpected {token : Token} {p : Position} {after : Cursor} {start : Nat}
    (placed : Follows.Placed text p start) (stop : Nat) (expected : String) :
    Follows text seen bound least (Reader.unexpected ⟨token, p, after⟩ expected)
      (unexpected text ⟨token, start, stop⟩ expected) :=
  .fail placed expected token.describe

section

variable (enough : size text.toList < rounds)
include enough

/-! Single tokens. -/

theorem follows_nextIs (mark : Punct) (bound : Nat) :
    Follows text none bound (fun _ => 0) (Reader.nextIs mark) (nextIs text rounds mark) := by
  refine .look enough fun token _ _ _ _ _ _ => ?_
  cases token <;> exact .pure _ rfl

theorem follows_eat (mark : Punct) (bound : Nat) :
    Follows text none bound Bool.toNat (Reader.eat mark) (eat text rounds mark) := by
  rw [eat, nextIs, bind_assoc]
  refine .look enough fun token _ _ _ _ _ _ => ?_
  cases token with
  | punct found =>
      rw [pure_bind]
      simp only [beq_iff_eq]
      exact .ite (fun _ => .taking enough fun _ => .pure true rfl) fun _ => .pure false rfl
  | _ => exact .pure false rfl

theorem follows_eatWord (word : String) (bound : Nat) :
    Follows text none bound Bool.toNat (Reader.eatWord word) (eatWord text rounds word) := by
  rw [eatWord, nextIsWord, bind_assoc]
  refine .look enough fun token _ _ _ _ _ _ => ?_
  cases token with
  | ident found =>
      rw [pure_bind]
      simp only [beq_iff_eq]
      exact .ite (fun _ => .taking enough fun _ => .pure true rfl) fun _ => .pure false rfl
  | _ => exact .pure false rfl

theorem follows_expect (mark : Punct) (bound : Nat) :
    Follows text none bound (fun _ => 1) (Reader.expect mark) (expect text rounds mark) := by
  refine .look enough fun token _ _ _ stop placed _ => ?_
  cases token with
  | punct found =>
      simp only [Follows.position placed, pure_bind]
      refine .ite (fun _ => ?_) fun _ => follows_unexpected placed stop _
      rw [← bind_pure_unit (x := Reader.take _)]
      exact .taking enough fun _ => .pure () rfl
  | _ => exact follows_unexpected placed stop _

theorem follows_expectWord (word : String) (bound : Nat) :
    Follows text none bound (fun _ => 1) (Reader.expectWord word)
      (expectWord text rounds word) := by
  refine .look enough fun token _ _ _ stop placed _ => ?_
  cases token with
  | ident found =>
      simp only [Follows.position placed]
      exact .ite (fun _ => .taking enough fun _ => .pure _ rfl) fun _ =>
        follows_unexpected placed stop _
  | _ => exact follows_unexpected placed stop _

theorem follows_name (what : String) (bound : Nat) :
    Follows text none bound (fun _ => 1) (Reader.name what) (name text rounds what) := by
  refine .look enough fun token _ _ _ stop placed _ => ?_
  cases token with
  | ident found =>
      simp only [Follows.position placed, pure_bind]
      exact .taking enough fun _ => .pure _ rfl
  | _ => exact follows_unexpected placed stop _

/-! Lists. -/

theorem follows_unlessClosed (close : Punct) {item : Reader α} {item' : Scanner α} {bound : Nat}
    (single : Follows text none bound (fun _ => 1) item item') :
    Follows text none bound itemLeast
      (Reader.eat close >>= fun closed =>
        if closed = true then pure none else item >>= fun found => pure (some found))
      (eat text rounds close >>= fun closed =>
        if closed = true then pure none else item' >>= fun found => pure (some found)) := by
  refine .bindTaken (follows_eat enough close bound) fun closed _ => ?_
  cases closed with
  | true => exact .pure none rfl
  | false => exact .bindTaken single fun found _ => .pure (some found) rfl

/-- The items that there are, for as many of which as there are characters there is room. -/
theorem follows_items {step : Reader (Option α)} {step' : Scanner (Option α)} {bound : Nat}
    (single : Follows text none bound itemLeast step step') :
    Follows text none bound (fun _ => 0)
      (Reader.remaining >>= fun left => Reader.collect step left) (many step' rounds) :=
  .counting enough fun left fits within =>
    follows_many (single.shrink fits) left rounds (Nat.le_refl left) within

theorem follows_itemsThen {step : Reader (Option α)} {step' : Scanner (Option α)} {bound : Nat}
    {next : List α → Reader β} {next' : List α → Scanner β}
    (single : Follows text none bound itemLeast step step')
    (behind : ∀ items, Follows text none bound (fun _ => 0) (next items) (next' items)) :
    Follows text none bound (fun _ => 0)
      (Reader.remaining >>= fun left => Reader.collect step left >>= next)
      (many step' rounds >>= next') := by
  rw [← bind_assoc]
  exact .bind (follows_items enough single) behind

theorem follows_dottedName (what : String) (bound : Nat) :
    Follows text none bound (fun _ => 1) (Reader.dottedName what)
      (dottedName text rounds what) := by
  refine .lead (follows_name enough what bound) fun first => ?_
  refine follows_itemsThen enough (follows_item (follows_eat enough .dot _) ?_) fun others =>
    .pure _ rfl
  exact .bind (follows_name enough what _) fun part => .pure _ rfl

end

/-! Object paths and types. -/

theorem run_skipping (text : String) (next : Nat → Scanner α) (i : Nat) :
    (do
      let start ← Source.skip text rounds (← get)
      set start
      next start : Scanner α).run i = Source.skip text rounds i >>= fun j => (next j).run j := by
  simp only [StateT.run_bind, StateT.run_get, StateT.run_set, run_scan, bind_assoc, pure_bind]

theorem ascii_path : Source.Ascii Reader.isPathChar :=
  Source.ascii_or Source.ascii_name (Source.ascii_is '/' (by decide))

theorem ascii_startsWith : Source.Ascii Ty.startsWith := by
  intro c starts
  rcases Reader.startsWith_cases c starts with letter | rfl
  · exact Source.ascii_letter c letter
  · decide

section

variable (enough : size text.toList < rounds)
include enough

theorem Follows.skipping {next : Cursor → Reader α} {next' : Nat → Scanner α}
    (continued : ∀ d j, At text d j → Mirrors text (fun read scanned => scanned.1 = read.1 ∧
      At text read.2 scanned.2 ∧ read.2.rest.length + least read.1 ≤ d.rest.length)
        ((next d).run d) ((next' j).run j)) :
    Follows text none bound least
      (do
        let cursor ← (← get).skip
        set cursor
        next cursor)
      (do
        let start ← Source.skip text rounds (← get)
        set start
        next' start) := by
  intro c i here _ _
  rw [Reader.run_skipping, run_skipping]
  refine (Source.skip_mirrors enough here).bind fun d j skips there => ?_
  refine (continued d j there).mono fun read scanned alike => ?_
  exact ⟨alike.1, alike.2.1,
    Nat.le_trans alike.2.2 (Cursor.moves_length (Cursor.moves_skip c d skips))⟩

theorem mirrors_other {cs : List Char} {p : Position} {j : Nat} (there : At text ⟨cs, p⟩ j)
    (least : α → Nat) (expected : String) :
    Mirrors text (fun read scanned => scanned.1 = read.1 ∧ At text read.2 scanned.2 ∧
      read.2.rest.length + least read.1 ≤ cs.length)
      ((do
        let lexeme ← Reader.peek
        Reader.fail p expected lexeme.token.describe : Reader α).run ⟨cs, p⟩)
      ((do
        let span ← peek text rounds
        fail text j expected span.token.describe : Scanner α).run j) := by
  have follows : Follows text none cs.length least
      (do
        let lexeme ← Reader.peek
        Reader.fail p expected lexeme.token.describe : Reader α)
      (do
        let span ← peek text rounds
        fail text j expected span.token.describe : Scanner α) :=
    .look enough fun token _ _ _ _ _ _ => .fail (Follows.placed there) expected token.describe
  exact follows ⟨cs, p⟩ j there noToken (Nat.le_refl _)

theorem follows_objectPath (bound : Nat) :
    Follows text none bound (fun _ => 1) Reader.objectPath (objectPath text rounds) := by
  refine .skipping enough fun d j there => ?_
  obtain ⟨cs, p⟩ := d
  have stands := there.stands
  rw [stands.has (Source.ascii_is '/' (by decide))]
  simp only
  split
  · next rest =>
      obtain ⟨ran, behind⟩ := stands.run ascii_path (stands.length_le.trans_lt enough)
      have path : ('/' :: rest).take (('/' :: rest).takeWhile Reader.isPathChar).length =
          ('/' :: rest).takeWhile Reader.isPathChar :=
        (List.prefix_iff_eq_take.mp (List.takeWhile_prefix _)).symm
      have sliced := stands.slice_to behind
      rw [path] at sliced
      simp only [List.head?_cons, Option.any_some, beq_self_eq_true, ↓reduceIte, StateT.run_bind,
        run_scan, ran, StateT.run_set, pure_bind, sliced]
      refine ⟨_, rfl, rfl, there.advance behind, ?_⟩
      simp [Cursor.advance_eq, Reader.isPathChar]
  · next other =>
      have noSlash : cs.head?.any (· == '/') = false := by
        cases cs with
        | nil => rfl
        | cons c rest =>
            exact beq_eq_false_iff_ne.mpr fun slash => other rest (by rw [slash])
      simp only [noSlash, Bool.false_eq_true, ↓reduceIte]
      exact mirrors_other enough there (fun _ => 1) _

theorem typeAt_mirrors {cs : List Char} {p : Position} {j : Nat} (there : At text ⟨cs, p⟩ j) :
    Mirrors text (fun (read : Ty × List Char) scanned => scanned.1 = read.1 ∧
        Stands text scanned.2 read.2 ∧ cs = read.1.letters ++ read.2)
      ((Ty.readFront cs).mapError fun fault => ⟨p, "a type signature", fault.reason⟩)
      (typeAt text rounds j) := by
  have spelled := Source.readFront_spelled enough there.stands
  cases read : Ty.readFront cs with
  | error fault =>
      rw [read] at spelled
      have scanned : Source.signature text rounds rounds j = throw fault.reason := spelled
      rw [typeAt, scanned]
      exact there.fails _ "a type signature" fault.reason
  | ok found =>
      obtain ⟨ty, rest⟩ := found
      rw [read] at spelled
      obtain ⟨stop, scanned, behind⟩ := spelled
      refine ⟨(ty, stop), ?_, rfl, behind, (Ty.readFront_spells cs _ read).2⟩
      rw [typeAt, scanned]
      rfl

theorem follows_type (bound : Nat) :
    Follows text none bound (fun _ => 1) Reader.type (type text rounds) := by
  refine .skipping enough fun d j there => ?_
  obtain ⟨cs, p⟩ := d
  have stands := there.stands
  rw [stands.has ascii_startsWith]
  simp only
  cases cs with
  | nil => exact mirrors_other enough there (fun _ => 1) _
  | cons c rest =>
      by_cases starts : Ty.startsWith c = true
      · have typed := typeAt_mirrors enough there
        simp only [starts, ↓reduceIte, List.head?_cons, Option.any_some, StateT.run_bind, run_scan]
        cases read : Ty.readFront (c :: rest) with
        | error fault =>
            rw [read] at typed
            obtain ⟨failed, inside⟩ := typed
            rw [failed]
            exact ⟨rfl, inside⟩
        | ok found =>
            rw [read] at typed
            obtain ⟨⟨ty, stop⟩, scanned, same, ends, spelled⟩ := typed
            obtain ⟨_, behind⟩ := found
            obtain rfl : ty = _ := same
            simp only at ends spelled
            have after : At text ⟨behind, p.past ty.letters⟩ stop :=
              there.moves ⟨ty.letters, spelled, rfl⟩ ends
            have ended : Cursor.advance ((ty.letters ++ behind).length - behind.length)
                ⟨ty.letters ++ behind, p⟩ = ⟨behind, p.past ty.letters⟩ := by
              rw [List.length_append, Nat.add_sub_cancel, Cursor.advance_past]
            have takes : behind.length + 1 ≤ (ty.letters ++ behind).length := by
              obtain ⟨first, more, letters, -⟩ := letters_begin ty
              simp only [letters, List.length_append, List.length_cons]
              omega
            rw [scanned]
            simp only [pure_bind, spelled, ended]
            cases behind with
            | nil =>
                rw [ends.byte?_nil]
                exact ⟨_, rfl, rfl, after, takes⟩
            | cons next more =>
                obtain ⟨byte, found, shows⟩ := ends.byte?_cons
                rw [found]
                simp only [shows _ Source.ascii_name]
                by_cases goesOn : isNameChar next = true
                · obtain ⟨_, found', first⟩ := ends.leading
                  obtain rfl := Option.some.inj (found'.symm.trans found)
                  have letter : Char.ofNat _ = next :=
                    first.trans (Source.leadingByte_ascii next (Source.ascii_name next goesOn))
                  simp only [goesOn, ↓reduceIte, letter]
                  refine ⟨?_, after.inside⟩
                  rw [fail, run_scan, Source.syntaxError, after.position]
                  rfl
                · simp only [goesOn, Bool.false_eq_true, ↓reduceIte]
                  exact ⟨_, rfl, rfl, after, takes⟩
      · simp only [starts, List.head?_cons, Option.any_some, Bool.false_eq_true, ↓reduceIte]
        exact mirrors_other enough there (fun _ => 1) _

end

end Scanner

end SimBus.Surface
