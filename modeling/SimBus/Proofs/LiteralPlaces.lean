import SimBus.Proofs.InitializerPlaces
import SimBus.Proofs.LiteralTokens
import SimBus.Proofs.ReaderLocality
/-!
A number as the initializer of a data variable, anywhere in a program. The text before the
variable is read the same whatever number it is, and so is the text behind it.
-/

namespace SimBus.Surface

namespace Reader

variable {α β γ δ ν : Type}

/-- On its way the reader comes to `e` by steps that do not depend on what is behind, and
there it goes on with `inner`. If it is led there from somewhere else, and `inner` then gives
one of these results, so does the reader; and if `inner` fails, it fails. -/
def Leads (reader : Reader β) (c : Cursor) (inner : Reader α) (e : Cursor)
    (made : ν → α × Cursor) (whole : ν → β × Cursor) : Prop :=
  ∃ (γ : Type) (lead : Reader γ) (a : γ), Stepwise lead ∧ lead.run c = .ok (a, e) ∧
    ∀ c' e', lead.run c' = .ok (a, e') → ∀ outcome : Except GrammarError ν,
      inner.run e' = outcome.map made → reader.run c' = outcome.map whole

theorem leads_trans {reader : Reader β} {middle : Reader δ} {inner : Reader α} {c d e : Cursor}
    {made : ν → α × Cursor} {between : ν → δ × Cursor} {whole : ν → β × Cursor}
    (first : Leads reader c middle d between whole) (second : Leads middle d inner e made between) :
    Leads reader c inner e made whole := by
  obtain ⟨γ, lead, a, stepwise, led, follows⟩ := first
  obtain ⟨γ', lead', a', stepwise', led', follows'⟩ := second
  refine ⟨γ × γ', lead >>= fun a => lead' >>= fun a' => pure (a, a'), (a, a'),
    .bind stepwise fun _ => .bind stepwise' fun _ => .pure _, ?_, ?_⟩
  · rw [run_bind_ok led, run_bind_ok led']
    rfl
  · intro c' e' both outcome reads
    obtain ⟨b, d', ledTo, both⟩ := (run_bind_ok_iff _ _ _ _ _).mp both
    obtain ⟨b', d'', ledOn, both⟩ := (run_bind_ok_iff _ _ _ _ _).mp both
    obtain ⟨same, rfl⟩ := (run_pure_ok_iff _ _ _ _).mp both
    obtain ⟨rfl, rfl⟩ := Prod.mk.inj same
    exact follows c' d' ledTo outcome (follows' d' e' ledOn outcome reads)

theorem leads_step {reader : Reader β} {step : Reader γ} {inner : Reader α} {c d : Cursor} {a : γ}
    {made : ν → α × Cursor} {whole : ν → β × Cursor} (stepwise : Stepwise step)
    (taken : step.run c = .ok (a, d))
    (goesOn : ∀ c' d', step.run c' = .ok (a, d') → ∀ outcome : Except GrammarError ν,
      inner.run d' = outcome.map made → reader.run c' = outcome.map whole) :
    Leads reader c inner d made whole :=
  ⟨γ, step, a, stepwise, taken, goesOn⟩

theorem leads_behind {step : Reader γ} {next : γ → Reader β} {c d : Cursor} {a : γ}
    (stepwise : Stepwise step) (taken : step.run c = .ok (a, d)) (whole : ν → β × Cursor) :
    Leads (step >>= next) c (next a) d whole whole :=
  leads_step stepwise taken fun _ _ taken' _ reads => (run_bind_ok taken' next).trans reads

theorem leads_within {step : Reader α} {next : α → Reader β} (c : Cursor) {made : ν → α × Cursor}
    {whole : ν → β × Cursor}
    (goesOn : ∀ n, (next (made n).1).run (made n).2 = .ok (whole n)) :
    Leads (step >>= next) c step c made whole := by
  refine leads_step (.pure ()) rfl fun c' d' taken outcome reads => ?_
  obtain ⟨-, rfl⟩ := (run_pure_ok_iff _ _ _ _).mp taken
  cases outcome with
  | error fault => exact run_bind_error reads next
  | ok n => exact (run_bind_ok reads next).trans (goesOn n)

theorem leads_collect {step : Reader (Option α)} (stepwise : Stepwise step) (bound : Nat)
    (c d : Cursor) (before after : List α) (item : α)
    (read : (collect step bound).run c = .ok (before ++ item :: after, d)) :
    ∃ e f, step.run e = .ok (some item, f) ∧ ∀ made : ν → α,
      Leads (collect step bound) c step e (fun n => (some (made n), f))
        (fun n => (before ++ made n :: after, d)) := by
  have noItem (before : List α) (e : Cursor) (read : (pure [] : Reader (List α)).run e =
      .ok (before ++ item :: after, d)) : False := by
    have empty := ((run_pure_ok_iff _ _ _ _).mp read).1
    simp at empty
  induction bound generalizing c before with
  | zero =>
      obtain ⟨found, f, taken, read⟩ := (run_bind_ok_iff _ _ _ _ _).mp read
      cases found with
      | none => exact (noItem before f read).elim
      | some first =>
          obtain ⟨items, rfl⟩ := (run_pure_ok_iff _ _ _ _).mp read
          obtain ⟨rfl, same⟩ | ⟨more, rfl, rest⟩ := List.append_eq_cons_iff.mp items
          · obtain ⟨rfl, rfl⟩ := List.cons.inj same
            exact ⟨c, d, taken, fun made => leads_within c fun _ => rfl⟩
          · simp at rest
  | succ bound ih =>
      obtain ⟨found, f, taken, read⟩ := (run_bind_ok_iff _ _ _ _ _).mp read
      cases found with
      | none => exact (noItem before f read).elim
      | some first =>
          obtain ⟨others, g, collected, read⟩ := (run_bind_ok_iff _ _ _ _ _).mp read
          obtain ⟨items, rfl⟩ := (run_pure_ok_iff _ _ _ _).mp read
          obtain ⟨rfl, same⟩ | ⟨more, rfl, rest⟩ := List.append_eq_cons_iff.mp items
          · obtain ⟨rfl, rfl⟩ := List.cons.inj same
            exact ⟨c, f, taken, fun made => leads_within c fun _ => run_bind_ok collected _⟩
          · subst rest
            obtain ⟨e, h, found, leads⟩ := ih f more collected
            refine ⟨e, h, found, fun made => ?_⟩
            have within : Leads (collect step bound >>= fun items => pure (first :: items)) f
                (collect step bound) f (fun n => (more ++ made n :: after, d))
                (fun n => ((first :: more) ++ made n :: after, d)) :=
              leads_within f fun _ => rfl
            exact leads_trans (leads_behind stepwise taken _) (leads_trans within (leads made))

def assigned : Reader Expr := expect .eq >>= fun _ => expression

theorem leads_assigned {next : Expr → Reader β} (c : Cursor) {made : ν → Expr × Cursor}
    {whole : ν → β × Cursor} (goesOn : ∀ n, (next (made n).1).run (made n).2 = .ok (whole n)) :
    Leads (expect .eq >>= fun _ => expression >>= next) c assigned c made whole := by
  rw [← bind_assoc]
  exact leads_within c goesOn

theorem leads_dataVariable (c d : Cursor) (declared : DataVariable)
    (read : dataVariable.run c = .ok (declared, d)) :
    ∃ e f, assigned.run e = .ok (declared.initializer, f) ∧
      Leads dataVariable c assigned e (fun initializer => (initializer, f))
        (fun initializer => ({ declared with initializer }, d)) := by
  obtain ⟨named, c₁, first, read⟩ := (run_bind_ok_iff _ _ _ _ _).mp read
  obtain ⟨_, c₂, second, read⟩ := (run_bind_ok_iff _ _ _ _ _).mp read
  obtain ⟨ty, e, third, read⟩ := (run_bind_ok_iff _ _ _ _ _).mp read
  obtain ⟨_, c₃, sign, read⟩ := (run_bind_ok_iff _ _ _ _ _).mp read
  obtain ⟨initializer, f, inside, read⟩ := (run_bind_ok_iff _ _ _ _ _).mp read
  obtain ⟨_, _, ended, read⟩ := (run_bind_ok_iff _ _ _ _ _).mp read
  obtain ⟨rfl, rfl⟩ := (run_pure_ok_iff _ _ _ _).mp read
  refine ⟨e, f, (run_bind_ok sign _).trans inside, ?_⟩
  refine leads_trans (leads_behind (stepwise_name _) first _) ?_
  refine leads_trans (leads_behind (stepwise_expect .colon) second _) ?_
  refine leads_trans (leads_behind .type third _) ?_
  exact leads_assigned e fun initializer => run_bind_ok ended _

theorem leads_block {item : Reader α} (stepwise : Stepwise item) (c d : Cursor)
    (before after : List α) (x : α) (read : (block item).run c = .ok (before ++ x :: after, d)) :
    ∃ e f, item.run e = .ok (x, f) ∧ ∀ made : ν → α,
      Leads (block item) c item e (fun n => (made n, f))
        (fun n => (before ++ made n :: after, d)) := by
  obtain ⟨_, c₁, opened, read⟩ := (run_bind_ok_iff _ _ _ _ _).mp read
  obtain ⟨bound, c₂, counted, read⟩ := (run_bind_ok_iff _ _ _ _ _).mp read
  have each : Stepwise (eat .rbrace >>= fun closed =>
      if closed then pure none else item >>= fun x => pure (some x)) :=
    .bind (stepwise_eat .rbrace) fun _ => alike_ite (fun _ => .pure _)
      fun _ => .bind stepwise fun _ => .pure _
  obtain ⟨e, f, taken, leads⟩ := leads_collect each bound c₂ d before after x read
  obtain ⟨closed, e', looked, taken⟩ := (run_bind_ok_iff _ _ _ _ _).mp taken
  cases closed with
  | true =>
      obtain ⟨same, -⟩ := (run_pure_ok_iff _ _ _ _).mp taken
      cases same
  | false =>
      obtain ⟨x', f', inside, taken⟩ := (run_bind_ok_iff _ _ _ _ _).mp taken
      obtain ⟨same, rfl⟩ := (run_pure_ok_iff _ _ _ _).mp taken
      obtain rfl := Option.some.inj same
      refine ⟨e', f, inside, fun made => ?_⟩
      refine leads_trans (leads_behind (stepwise_expect .lbrace) opened _) ?_
      refine leads_trans (leads_behind .remaining counted _) ?_
      refine leads_trans (leads made) ?_
      refine leads_trans (leads_behind (stepwise_eat .rbrace) looked _) ?_
      exact leads_within e' fun _ => rfl

def takeToken : Reader Token := peek >>= fun lexeme => take lexeme >>= fun _ => pure lexeme.token

theorem stepwise_takeToken : Stepwise takeToken := .look fun _ _ _ _ => alike_taking (.pure _)

theorem takeToken_ok_iff (c d : Cursor) (token : Token) :
    takeToken.run c = .ok (token, d) ↔ ∃ position, c.next = .ok ⟨token, position, d⟩ := by
  rw [takeToken, run_bind_ok_iff]
  constructor
  · rintro ⟨⟨found, position, after⟩, e, peeked, read⟩
    obtain ⟨rfl, rfl⟩ := Prod.mk.inj (Except.ok.inj read)
    exact ⟨position, (Cursor.next_ok_iff c _).mpr ⟨e, (run_peek_ok_iff _ _ _).mp peeked⟩⟩
  · rintro ⟨position, next⟩
    obtain ⟨e, -, peeked⟩ := peek_next next
    exact ⟨_, e, peeked, rfl⟩

theorem leads_part (c d : Cursor) (declared : List DataVariable)
    (read : part.run c = .ok (some (.data declared), d)) :
    ∃ e, (block dataVariable).run e = .ok (declared, d) ∧ ∀ made : ν → List DataVariable,
      Leads part c (block dataVariable) e (fun n => (made n, d))
        (fun n => (some (.data (made n)), d)) := by
  obtain ⟨⟨token, position, after⟩, e, peeked, read⟩ := (run_bind_ok_iff _ _ _ _ _).mp read
  have next := (Cursor.next_ok_iff c _).mpr ⟨e, (run_peek_ok_iff _ _ _).mp peeked⟩
  dsimp only at read
  split at read
  · cases read
  · obtain ⟨_, _, taken, read⟩ := (run_bind_ok_iff _ _ _ _ _).mp read
    obtain ⟨rfl, rfl⟩ := Prod.mk.inj (Except.ok.inj taken)
    obtain ⟨found, f, inside, read⟩ := (run_bind_ok_iff _ _ _ _ _).mp read
    obtain ⟨same, rfl⟩ := (run_pure_ok_iff _ _ _ _).mp read
    obtain rfl := Part.data.inj (Option.some.inj same)
    refine ⟨after, inside, fun made => ?_⟩
    have within : Leads (block dataVariable >>= fun declared =>
        pure (some (Part.data declared))) after
        (block dataVariable) after (fun n => (made n, d))
        (fun n => (some (Part.data (made n)), d)) :=
      leads_within after fun _ => rfl
    refine leads_trans (leads_step stepwise_takeToken
      ((takeToken_ok_iff _ _ _).mpr ⟨position, next⟩) ?_) within
    intro c' d' taken outcome reads
    obtain ⟨place, next'⟩ := (takeToken_ok_iff _ _ _).mp taken
    obtain ⟨e', -, peeked'⟩ := peek_next next'
    exact (run_bind_ok peeked' _).trans reads
  · obtain ⟨_, _, -, read⟩ := (run_bind_ok_iff _ _ _ _ _).mp read
    obtain ⟨_, _, -, read⟩ := (run_bind_ok_iff _ _ _ _ _).mp read
    cases read
  · obtain ⟨_, _, -, read⟩ := (run_bind_ok_iff _ _ _ _ _).mp read
    cases read
  · cases read

theorem flatMap_split (f : α → List β) (items : List α) (before after : List β) (x : β)
    (split : items.flatMap f = before ++ x :: after) :
    ∃ first item second left right, items = first ++ item :: second ∧ f item = left ++ x :: right ∧
      before = first.flatMap f ++ left ∧ after = right ++ second.flatMap f := by
  induction items generalizing before with
  | nil => simp at split
  | cons item rest ih =>
      rw [List.flatMap_cons] at split
      rcases List.append_eq_append_iff.mp split with ⟨more, rfl, within⟩ | ⟨more, left, right⟩
      · obtain ⟨first, item', second, left, right, rfl, inside, rfl, rfl⟩ := ih more within
        exact ⟨item :: first, item', second, left, right, rfl, inside, by simp, rfl⟩
      · cases more with
        | nil =>
            obtain ⟨first, item', second, left', right', rfl, inside, same, rfl⟩ := ih [] right.symm
            refine ⟨item :: first, item', second, left', right', rfl, inside, ?_, rfl⟩
            rw [List.flatMap_cons, List.append_assoc, ← same, left, List.append_nil,
              List.append_nil]
        | cons y more =>
            obtain ⟨rfl, rfl⟩ := List.cons.inj right
            exact ⟨[], item, rest, before, more, rfl, left, rfl, rfl⟩

theorem leads_object (c d : Cursor) (read₀ : Object) (before after : List DataVariable)
    (declared : DataVariable) (read : object.run c = .ok (read₀, d))
    (data : read₀.data = before ++ declared :: after) :
    ∃ e f, assigned.run e = .ok (declared.initializer, f) ∧
      Leads object c assigned e (fun initializer => (initializer, f)) (fun initializer =>
        ({ read₀ with data := before ++ { declared with initializer } :: after }, d)) := by
  obtain ⟨start, c₁, first, read⟩ := (run_bind_ok_iff _ _ _ _ _).mp read
  obtain ⟨_, c₂, second, read⟩ := (run_bind_ok_iff _ _ _ _ _).mp read
  obtain ⟨path, c₃, third, read⟩ := (run_bind_ok_iff _ _ _ _ _).mp read
  obtain ⟨names, c₄, fourth, read⟩ := (run_bind_ok_iff _ _ _ _ _).mp read
  obtain ⟨_, c₅, fifth, read⟩ := (run_bind_ok_iff _ _ _ _ _).mp read
  obtain ⟨interfaces, c₆, sixth, read⟩ := (run_bind_ok_iff _ _ _ _ _).mp read
  obtain ⟨_, c₇, opened, read⟩ := (run_bind_ok_iff _ _ _ _ _).mp read
  obtain ⟨bound, c₈, counted, read⟩ := (run_bind_ok_iff _ _ _ _ _).mp read
  obtain ⟨parts, c₉, collected, read⟩ := (run_bind_ok_iff _ _ _ _ _).mp read
  obtain ⟨rfl, rfl⟩ := (run_pure_ok_iff _ _ _ _).mp read
  obtain ⟨earlier, found, later, left, right, rfl, inside, rfl, rfl⟩ := flatMap_split _ _ _ _ _ data
  obtain ⟨own, rfl⟩ : ∃ own, found = .data own := by
    cases found with
    | data own => exact ⟨own, rfl⟩
    | _ => simp [Part.dataVariables] at inside
  obtain rfl : own = left ++ declared :: right := inside
  obtain ⟨e₁, f₁, atPart, toPart⟩ :=
    leads_collect stepwise_part bound c₈ d earlier later _ collected
  obtain ⟨e₂, atBlock, toBlock⟩ := leads_part e₁ f₁ _ atPart
  obtain ⟨e₃, f₃, atVariable, toVariable⟩ :=
    leads_block stepwise_dataVariable e₂ f₁ left right declared atBlock
  obtain ⟨e, f, inside, toInitializer⟩ := leads_dataVariable e₃ f₃ declared atVariable
  refine ⟨e, f, inside, ?_⟩
  refine leads_trans (leads_behind (stepwise_expectWord _) first _) ?_
  refine leads_trans (leads_behind (stepwise_expectWord _) second _) ?_
  refine leads_trans (leads_behind .objectPath third _) ?_
  refine leads_trans (leads_behind stepwise_claims fourth _) ?_
  refine leads_trans (leads_behind (stepwise_expectWord _) fifth _) ?_
  refine leads_trans (leads_behind stepwise_interfaces sixth _) ?_
  refine leads_trans (leads_behind (stepwise_expect .lbrace) opened _) ?_
  refine leads_trans (leads_behind .remaining counted _) ?_
  refine leads_trans ?_ (leads_trans (toPart _) (leads_trans (toBlock _)
    (leads_trans (toVariable _) toInitializer)))
  refine leads_within c₈ fun initializer => ?_
  simp only [List.flatMap_append, List.flatMap_cons, List.filterMap_append, List.filterMap_cons,
    Part.dataVariables, Part.names, Part.transition?, List.append_assoc, List.cons_append]
  rfl

def atEnd : Reader Bool := peek >>= fun lexeme =>
  match lexeme.token with
  | .endOfText => pure true
  | _ => pure false

theorem stepwise_atEnd : Stepwise atEnd := by
  refine .look fun token _ _ _ => ?_
  cases token <;> exact .pure _

theorem atEnd_false_iff (c d : Cursor) : atEnd.run c = .ok (false, d) ↔
    ∃ lexeme, peek.run c = .ok (lexeme, d) ∧ lexeme.token ≠ .endOfText := by
  rw [atEnd, run_bind_ok_iff]
  constructor
  · rintro ⟨lexeme, e, peeked, read⟩
    split at read
    · cases read
    · next more =>
        obtain ⟨-, rfl⟩ := (run_pure_ok_iff _ _ _ _).mp read
        exact ⟨lexeme, peeked, more⟩
  · rintro ⟨lexeme, peeked, more⟩
    refine ⟨lexeme, d, peeked, ?_⟩
    split
    · next last => exact absurd last more
    · rfl

def programStep : Reader (Option Object) := peek >>= fun lexeme =>
  match lexeme.token with
  | .endOfText => pure none
  | _ => object >>= fun read => pure (some read)

theorem leads_programStep (c d : Cursor) (written : Object)
    (read : programStep.run c = .ok (some written, d)) :
    ∃ e, object.run e = .ok (written, d) ∧ ∀ made : ν → Object,
      Leads programStep c object e (fun n => (made n, d)) (fun n => (some (made n), d)) := by
  obtain ⟨lexeme, e, peeked, read⟩ := (run_bind_ok_iff _ _ _ _ _).mp read
  split at read
  · cases read
  · next more =>
      obtain ⟨found, f, inside, read⟩ := (run_bind_ok_iff _ _ _ _ _).mp read
      obtain ⟨same, rfl⟩ := (run_pure_ok_iff _ _ _ _).mp read
      obtain rfl := Option.some.inj same
      refine ⟨e, inside, fun made => ?_⟩
      have within : Leads (object >>= fun read => pure (some read)) e object e
          (fun n => (made n, d)) (fun n => (some (made n), d)) := leads_within e fun _ => rfl
      refine leads_trans (leads_step stepwise_atEnd
        ((atEnd_false_iff c e).mpr ⟨lexeme, peeked, more⟩) ?_) within
      intro c' d' looked outcome reads
      obtain ⟨lexeme', peeked', more'⟩ := (atEnd_false_iff c' d').mp looked
      refine (run_bind_ok peeked' _).trans ?_
      split
      · next last => exact absurd last more'
      · exact reads

theorem stepwise_programStep : Stepwise programStep := by
  refine .look fun token _ _ _ => ?_
  cases token with
  | endOfText => exact .pure _
  | _ => exact .stay (.bind stepwise_object fun _ => .pure _)

theorem leads_program (site : Site) (initializer : Expr) (c d : Cursor)
    (read : program.run c = .ok (site.fill initializer, d)) :
    ∃ e f, assigned.run e = .ok (initializer, f) ∧
      Leads program c assigned e (fun initializer => (initializer, f))
        (fun initializer => (site.fill initializer, d)) := by
  obtain ⟨bound, c₁, counted, read⟩ := (run_bind_ok_iff _ _ _ _ _).mp read
  obtain ⟨e₁, f₁, atStep, toStep⟩ :=
    leads_collect stepwise_programStep bound c₁ d site.earlier site.later _ read
  obtain ⟨e₂, atObject, toObject⟩ := leads_programStep e₁ f₁ _ atStep
  obtain ⟨e, f, inside, toInitializer⟩ :=
    leads_object e₂ f₁ _ site.before site.after _ atObject rfl
  refine ⟨e, f, inside, ?_⟩
  refine leads_trans (leads_behind .remaining counted _) ?_
  exact leads_trans (toStep _) (leads_trans (toObject _) toInitializer)

end Reader

/-! The number in its place. -/

theorem punct?_eq (text : List Char) (size : Nat) (found : punct? text = some (.eq, size)) :
    ∃ behind, text = '=' :: behind ∧ Single behind ∧ size = 1 := by
  unfold punct? at found
  split at found
  case h_7 c behind _ _ noPair _ _ _ =>
    split at found
    all_goals cases found
    refine ⟨behind, rfl, ?_, rfl⟩
    rintro d first rfl
    cases behind with
    | nil => cases first
    | cons d rest => exact noPair rest rfl (by rw [Option.some.inj first])
  all_goals cases found

theorem readToken_sign (text : List Char) (p q : Position) (after : Cursor)
    (read : readToken ⟨text, p⟩ = .ok ⟨.punct .eq, q, after⟩) :
    text = '=' :: after.rest ∧ Single after.rest := by
  obtain ⟨_, _, size, -, -, -, -, found, -, rfl⟩ := readToken_mark_cases _ _ _ _ _ read
  obtain ⟨behind, rfl, single, rfl⟩ := punct?_eq text size found
  exact ⟨rfl, single⟩

theorem single_numeric (lead text text' : List Char) (single : Single (lead ++ text))
    (numeric : Numeric text') : Single (lead ++ text') := by
  cases lead with
  | nil =>
      obtain ⟨d, rest, rfl, digit⟩ := numeric
      rintro e first rfl
      obtain rfl := Option.some.inj first
      cases digit
  | cons c lead => exact single

theorem readToken_other (literal other : Literal) (after : List Char) (place : Position)
    (stop : Cursor) (same : literal.text.length = other.text.length) (ends : Ends after)
    (token : readToken ⟨other.text ++ after, place⟩ = .ok ⟨.integer other.value, place, stop⟩) :
    readToken ⟨literal.text ++ after, place⟩ = Reader.numberAt place stop (literal.read place) := by
  rw [readToken_literal other after place ends, Literal.read] at token
  rw [readToken_literal literal after place ends, same]
  split at token
  · obtain ⟨-, -, rfl⟩ := Lexeme.mk.inj (Except.ok.inj token)
    rfl
  · cases token

namespace Reader

theorem expect_ok_iff (mark : Punct) (c d : Cursor) : (expect mark).run c = .ok ((), d) ↔
    ∃ position, c.next = .ok ⟨.punct mark, position, d⟩ := by
  rw [expect, run_bind_ok_iff]
  constructor
  · rintro ⟨⟨token, position, after⟩, e, peeked, read⟩
    have next := (Cursor.next_ok_iff c _).mpr ⟨e, (run_peek_ok_iff _ _ _).mp peeked⟩
    cases token with
    | punct found =>
        dsimp only at read
        split at read
        · next same =>
            obtain ⟨-, rfl⟩ := Prod.mk.inj (Except.ok.inj read)
            exact ⟨position, same ▸ next⟩
        · cases read
    | _ => cases read
  · rintro ⟨position, next⟩
    obtain ⟨e, -, peeked⟩ := peek_next next
    exact ⟨_, e, peeked, by simp only [↓reduceIte]; rfl⟩

theorem assigned_local {behind behind' : List Char} {e e' g : Cursor} (single : Single behind)
    (single' : Single behind') (sign : (expect .eq).run e = .ok ((), g)) (rest : g.rest = behind)
    (steady : Cursor.Steady behind e) (parted : Cursor.Parted behind behind' e e') :
    assigned.run e' = expression.run ⟨behind', g.position⟩ := by
  obtain ⟨q, next⟩ := (expect_ok_iff _ _ _).mp sign
  obtain ⟨e₂, -, peeked⟩ := peek_next next
  obtain ⟨after', d', peeked', ⟨left, text, rfl⟩, -⟩ :=
    peek_local single single' parted peeked steady
  obtain rfl : left = [] := by simpa [rest] using text
  have next' := (Cursor.next_ok_iff e' _).mpr ⟨_, (run_peek_ok_iff _ _ _).mp peeked'⟩
  exact run_bind_ok ((expect_ok_iff _ _ _).mpr ⟨q, next'⟩) _

end Reader

open Reader in
/-- A number in the place of another one of the same length is read instead of that, and
nothing else changes; a number that is too great is an error at its place. -/
theorem parse_literal (site : Site) (layers : List Layer) (before after : List Char)
    (literal other : Literal) (same : literal.text.length = other.text.length) (ends : Ends after)
    (written : parse (String.ofList (before ++ (other.text ++ after))) =
      .ok (site.fill (wrapped layers (Position.past ⟨1, 1⟩ before) other.value))) :
    parse (String.ofList (before ++ (literal.text ++ after))) =
      (literal.read (Position.past ⟨1, 1⟩ before)).map fun n =>
        site.fill (wrapped layers (Position.past ⟨1, 1⟩ before) n) := by
  generalize placed : Position.past ⟨1, 1⟩ before = place at *
  obtain ⟨⟨_, d⟩, read, rfl⟩ := (except_map_ok_iff _ _ _).mp written
  rw [Cursor.start, String.toList_ofList] at read
  obtain ⟨e, f, inside, γ, lead, a, stepwise, led, follows⟩ := leads_program site _ _ d read
  obtain ⟨_, g, sign, expressed⟩ := (run_bind_ok_iff _ _ _ _ _).mp inside
  obtain ⟨marks, stop, stands, reads⟩ := transparent_expression expressed
  obtain ⟨front, text, rest, past, token, others⟩ := behind_local g stop place _ marks stands
  obtain ⟨q, next⟩ := (expect_ok_iff _ _ _).mp sign
  obtain ⟨⟨_, p⟩, skips, signToken⟩ := (Cursor.next_ok_iff e _).mp next
  obtain ⟨rfl, single⟩ := readToken_sign _ _ _ _ signToken
  have steady : Cursor.Steady g.rest e := ⟨[], p, _, skips, signToken, le_rfl⟩
  -- The position of the number tells where it stands in the text.
  have passed := alike_passes stepwise _ e a (at_none _) led
  have moves := Cursor.moves_trans (Cursor.passes_moves passed) (Cursor.moves_next e _ next)
  obtain ⟨lead', whole, begun⟩ := moves
  simp only [rest, ← List.append_assoc lead'] at whole
  have samePlace : Position.past ⟨1, 1⟩ before = Position.past ⟨1, 1⟩ (lead' ++ front) := by
    rw [placed, past, begun, Position.past_append]
  obtain rfl := Position.past_injective _ _ _ _ _ whole samePlace
  obtain rfl := List.append_cancel_left whole
  have token' := readToken_other literal other after place stop same ends token
  have numeric := numeric_literal literal after
  have length : (front ++ (literal.text ++ after)).length = g.rest.length := by simp [rest, same]
  -- The sign is reached, the number behind it is read, and the rest is as before.
  obtain ⟨e', led', parted⟩ := alike_local length single
    (single_numeric front _ _ (rest ▸ single) numeric) stepwise _
    ⟨lead' ++ (front ++ (literal.text ++ after)), ⟨1, 1⟩⟩ e a (at_none _) partedAt_none
    ⟨lead', by simp [rest], rfl⟩ led steady
  have atSign := assigned_local single (single_numeric front _ _ (rest ▸ single) numeric) sign rfl
    steady parted
  have behind := others _ numeric
  rw [token'] at behind
  have expressed' := reads (literal.read place) _ behind length
  have whole := follows _ e' led' ((literal.read place).map (wrapped layers place)) ?_
  · rw [parse, Cursor.start, String.toList_ofList, List.append_assoc, whole]
    cases literal.read place <;> rfl
  · rw [atSign, expressed']
    cases literal.read place <;> rfl

end SimBus.Surface
