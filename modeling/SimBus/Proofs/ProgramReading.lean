import SimBus.Proofs.ExpressionReading
import SimBus.Proofs.WritableSymbols
/-!
Programs read back: statements, transitions, the parts of an object in any arrangement,
and whole programs.
-/

namespace SimBus.Surface

namespace Reader

theorem expression_item (e : Expr) (writable : e.Writable) :
    ReadsItem expression (Expr.symbols 0) Expr.bare Expr.bare e where
  reads := fun rest stops => reads_expression e rest writable stops
  opens := fun rest => Expr.symbols_begin 0 e rest writable

theorem reads_arguments (arguments : List Expr) (rest : List Symbol)
    (writable : ∀ item ∈ arguments, item.Writable) :
    Reads (argumentList expression) (argumentSymbols (arguments.map (Expr.symbols 0)) ++ rest) rest
      fun found => found.map Expr.bare = arguments.map Expr.bare :=
  reads_argumentList arguments rest fun item member => expression_item item (writable item member)

theorem reads_expression_until (e : Expr) (mark : Punct) (rest : List Symbol)
    (writable : e.Writable) (apart : mark ≠ .lparen) (loose : ∀ l ∈ levels, l mark = none) :
    Reads expression (e.symbols 0 ++ .punct mark :: rest) (.punct mark :: rest)
      (·.bare = e.bare) :=
  reads_expression e _ writable (stops_mark 0 mark rest apart loose)

theorem reads_statement (s : Statement) (rest : List Symbol) (writable : s.Writable) :
    Reads statement (s.symbols ++ rest) rest (·.bare = s.bare) := by
  cases s with
  | assign pos name value =>
      obtain ⟨word, notReserved, expressible⟩ := writable
      simp only [Statement.symbols, List.cons_append, List.append_assoc, List.nil_append]
      refine .peeked _ rfl fun lexeme made behind => ?_
      simp only [made]
      -- The words of the other statements are excluded.
      split
      · next same => exact absurd (Token.ident.inj same) (fun is => notReserved (is ▸ by decide))
      · next same => exact absurd (Token.ident.inj same) (fun is => notReserved (is ▸ by decide))
      · next same => exact absurd (Token.ident.inj same) (fun is => notReserved (is ▸ by decide))
      · next target _ _ _ same =>
          obtain rfl := Token.ident.inj same
          refine (reads_take lexeme _ _ behind).bind fun _ _ => ?_
          refine (reads_expect .eq _).bind fun _ _ => ?_
          refine (reads_expression_until value .semicolon rest expressible (by decide)
            (by decide)).bind fun found same => ?_
          refine (reads_expect .semicolon rest).bind fun _ _ => .pure _ _ _ ?_
          rw [Statement.bare, same, Statement.bare]
      · next other => exact absurd rfl (other name)
  | reply pos arguments =>
      simp only [Statement.symbols, List.cons_append, List.append_assoc, List.nil_append]
      refine .peeked _ rfl fun lexeme made behind => ?_
      simp only [made]
      refine (reads_take lexeme _ _ behind).bind fun _ _ => ?_
      refine (reads_arguments arguments _ writable).bind fun found same => ?_
      refine (reads_expect .semicolon rest).bind fun _ _ => .pure _ _ _ ?_
      rw [Statement.bare, same, Statement.bare]
  | emit pos signal arguments =>
      obtain ⟨-, expressible⟩ := writable
      simp only [Statement.symbols, List.cons_append, List.append_assoc, List.nil_append]
      refine .peeked _ rfl fun lexeme made behind => ?_
      simp only [made]
      refine (reads_take lexeme _ _ behind).bind fun _ _ => ?_
      refine (reads_dottedName _ signal _ (begins_mark _ (by decide))).bind fun name text => ?_
      refine (reads_arguments arguments _ expressible).bind fun found same => ?_
      refine (reads_expect .semicolon rest).bind fun _ _ => .pure _ _ _ ?_
      rw [Statement.bare, same, text, Statement.bare]
  | throw pos error message =>
      obtain ⟨-, expressible⟩ := writable
      simp only [Statement.symbols, List.cons_append, List.append_assoc, List.nil_append]
      refine .peeked _ rfl fun lexeme made behind => ?_
      simp only [made]
      refine (reads_take lexeme _ _ behind).bind fun _ _ => ?_
      cases message with
      | none =>
          refine (reads_dottedName _ error _ (begins_mark rest (by decide))).bind
            fun name text => ?_
          refine .whenTrue (reads_nextIs .semicolon rest) ?_
          refine (reads_expect .semicolon rest).bind fun _ _ => .pure _ _ _ ?_
          rw [Statement.bare, text, Statement.bare]
      | some e =>
          -- No expression begins with a dot or a semicolon.
          have opens := Expr.symbols_begin 0 e (.punct .semicolon :: rest) (expressible e rfl)
          refine (reads_dottedName _ error _ (opens.other .dot rfl)).bind fun name text => ?_
          refine .whenFalse (reads_nextIs_other .semicolon _ (opens.other .semicolon rfl)) ?_
          refine (reads_expression_until e .semicolon rest (expressible e rfl) (by decide)
            (by decide)).bind fun found same => ?_
          refine (reads_expect .semicolon rest).bind fun _ _ => .pure _ _ _ ?_
          rw [Statement.bare, text, Statement.bare, Option.map_some, same, Option.map_some]

theorem reads_precondition (p : Precondition) (rest : List Symbol) (writable : p.Writable) :
    Reads precondition (p.guardSymbols ++ rest) rest (·.bare = p.bare) := by
  obtain ⟨error, condition⟩ := p
  obtain ⟨-, expressible⟩ := writable
  have guarded (named : Option String) :
      Reads (do
          expect .lbrace
          let condition ← expression
          expect .rbrace
          pure (Precondition.mk named condition))
        (enclosed .lbrace .rbrace (condition.symbols 0) ++ rest) rest
        (·.bare = Precondition.bare ⟨named, condition⟩) := by
    rw [enclosed, List.cons_append, List.append_assoc, List.singleton_append]
    refine (reads_expect .lbrace _).bind fun _ _ => ?_
    refine (reads_expression_until condition .rbrace rest expressible (by decide)
      (by decide)).bind fun found same => ?_
    refine (reads_expect .rbrace rest).bind fun _ _ => .pure _ _ _ ?_
    rw [Precondition.bare, same, Precondition.bare]
  cases error with
  | none =>
      exact .whenFalse (reads_eatWord_other "throwing" _ (begins_noWord .lbrace _ _)) (guarded none)
  | some error =>
      simp only [Precondition.guardSymbols, Option.elim_some, List.cons_append, List.append_assoc]
      refine .whenTrue (reads_eatWord "throwing" _) ?_
      refine (reads_dottedName _ error _ (begins_mark _ (by decide))).bind ?_
      rintro ⟨text, position⟩ rfl
      exact guarded (some text)

theorem reads_trigger (t : Trigger) (rest : List Symbol) (apart : Begins rest (· ≠ .punct .dot)) :
    Reads trigger (t.symbols ++ rest) rest (·.1 = t) := by
  cases t with
  | method name =>
      refine .peeked _ rfl fun lexeme made behind => ?_
      simp only [made]
      refine (reads_take lexeme _ _ behind).bind fun _ _ => ?_
      exact (reads_dottedName _ name rest apart).bind fun found same => .pure _ _ _ (same ▸ rfl)
  | property name =>
      refine .peeked _ rfl fun lexeme made behind => ?_
      simp only [made]
      refine (reads_take lexeme _ _ behind).bind fun _ _ => ?_
      exact (reads_dottedName _ name rest apart).bind fun found same => .pure _ _ _ (same ▸ rfl)
  | arbitrary =>
      refine .peeked _ rfl fun lexeme made behind => ?_
      simp only [made]
      exact (reads_take lexeme _ _ behind).bind fun _ _ => .pure _ _ _ rfl

theorem bare_of_text {found name : Name} (same : found.text = name.text) :
    found.bare = name.bare := by
  rw [Name.bare, Name.bare, same]

theorem reads_route (t : Transition) (short : Bool) (rest : List Symbol) :
    Reads route (t.route short ++ rest) rest
      fun found => found.1.bare = t.source.bare ∧ found.2.bare = t.target.bare := by
  by_cases stays : (short && t.source.text == t.target.text) = true
  · rw [Transition.route, if_pos stays]
    simp only [Bool.and_eq_true, beq_iff_eq] at stays
    refine .whenTrue (reads_eatWord "inside" _) ?_
    exact (reads_name _ _ rest).bind fun found same =>
      .pure _ _ _ ⟨bare_of_text same, bare_of_text (same.trans stays.2)⟩
  · rw [Transition.route, if_neg stays]
    refine .whenFalse (reads_eatWord_other "inside" _ (begins_otherWord _ (by decide))) ?_
    refine (reads_expectWord "from" _).bind fun _ _ => ?_
    refine (reads_name _ _ _).bind fun source sameSource => ?_
    refine (reads_expectWord "to" _).bind fun _ _ => ?_
    exact (reads_name _ _ rest).bind fun target sameTarget =>
      .pure _ _ _ ⟨bare_of_text sameSource, bare_of_text sameTarget⟩

section Blocks

variable {α β γ : Type} (item : Reader α) (symbols : β → List Symbol) (view : α → γ)
  (meaning : β → γ)

theorem reads_blockItems (items : List β) (bound : Nat) (rest : List Symbol)
    (reads : ∀ x ∈ items, ∀ rest, Reads item (symbols x ++ rest) rest (view · = meaning x))
    (begins : ∀ x ∈ items, ∀ rest, Begins (symbols x ++ rest) (· ≠ .punct .rbrace))
    (filled : ∀ x ∈ items, symbols x ≠ [])
    (enough : (items.flatMap symbols ++ .punct .rbrace :: rest).length ≤ bound) :
    Reads (collect (do if ← eat .rbrace then pure none else pure (some (← item))) bound)
      (items.flatMap symbols ++ .punct .rbrace :: rest) rest
      fun found => found.map view = items.map meaning := by
  have sizes := length_le_flatMap symbols items filled
  rw [List.length_append] at enough
  refine reads_collect _ symbols view meaning (fun _ => True) items _ rest bound ?_
    (fun _ _ _ => trivial) trivial ?_ (by omega)
  · intro x member more _
    refine .whenFalse (reads_eat_other .rbrace _ (begins x member more)) ?_
    exact (reads x member more).bind fun a same => .pure _ _ _ ⟨a, rfl, same⟩
  · exact .whenTrue (reads_eat .rbrace rest) (.pure _ _ _ rfl)

theorem reads_block (items : List β) (rest : List Symbol)
    (reads : ∀ x ∈ items, ∀ rest, Reads item (symbols x ++ rest) rest (view · = meaning x))
    (begins : ∀ x ∈ items, ∀ rest, Begins (symbols x ++ rest) (· ≠ .punct .rbrace))
    (filled : ∀ x ∈ items, symbols x ≠ []) :
    Reads (block item) (enclosed .lbrace .rbrace (items.flatMap symbols) ++ rest) rest
      fun found => found.map view = items.map meaning := by
  rw [enclosed, List.cons_append, List.append_assoc, List.singleton_append]
  refine (reads_expect .lbrace _).bind fun _ _ => (reads_remaining _).bind fun bound enough => ?_
  exact reads_blockItems item symbols view meaning items bound rest reads begins filled enough

end Blocks

theorem statement_begins (s : Statement) (rest : List Symbol) (writable : s.Writable) :
    Begins (s.symbols ++ rest) fun token =>
      ∃ word, token = .ident word ∧ word ≠ "precondition" := by
  cases s with
  | assign pos name value =>
      exact ⟨_, rfl, name, rfl, fun same => writable.2.1 (same ▸ by decide)⟩
  | _ => exact ⟨_, rfl, _, rfl, by decide⟩

theorem Statement.symbols_ne_nil (s : Statement) : s.symbols ≠ [] := by
  cases s <;> exact List.cons_ne_nil _ _

theorem reads_body (body : List Statement) (bound : Nat) (rest : List Symbol)
    (writable : ∀ s ∈ body, s.Writable)
    (enough : (body.flatMap Statement.symbols ++ .punct .rbrace :: rest).length ≤ bound) :
    Reads (collect (do if ← eat .rbrace then pure none else pure (some (← statement))) bound)
      (body.flatMap Statement.symbols ++ .punct .rbrace :: rest) rest
      fun found => found.map Statement.bare = body.map Statement.bare := by
  refine reads_blockItems statement _ _ _ body bound rest
    (fun s member more => reads_statement s more (writable s member)) ?_
    (fun s _ => Statement.symbols_ne_nil s) enough
  intro s member more
  refine (statement_begins s more (writable s member)).mono ?_
  rintro _ ⟨word, rfl, -⟩ same
  cases same

theorem reads_preconditions (preconditions : List Precondition) (bound : Nat) (rest : List Symbol)
    (writable : ∀ p ∈ preconditions, p.Writable) (apart : Begins rest (· ≠ .ident "precondition"))
    (enough : (preconditions.flatMap Precondition.symbols ++ rest).length ≤ bound) :
    Reads (collect (do
        if ← eatWord "precondition" then pure (some (← precondition)) else pure none) bound)
      (preconditions.flatMap Precondition.symbols ++ rest) rest
      fun found => found.map Precondition.bare = preconditions.map Precondition.bare := by
  have sizes := length_le_flatMap Precondition.symbols preconditions fun _ _ => List.cons_ne_nil _ _
  rw [List.length_append] at enough
  refine reads_collect _ Precondition.symbols Precondition.bare Precondition.bare (fun _ => True)
    preconditions rest rest bound ?_ (fun _ _ _ => trivial) trivial ?_ (by omega)
  · intro p member more _
    refine .whenTrue (reads_eatWord "precondition" _) ?_
    exact (reads_precondition p more (writable p member)).bind fun a same =>
      .pure _ _ _ ⟨a, rfl, same⟩
  · exact .whenFalse (reads_eatWord_other "precondition" rest apart) (.pure _ _ _ rfl)

theorem reads_transition (t : Transition) (short : Bool) (rest : List Symbol)
    (writable : t.Writable) :
    Reads transition (t.symbols short ++ rest) rest (·.bare = t.bare) := by
  -- The preconditions end where the body begins, or the bracket behind it.
  have bodyBegins : Begins (t.body.flatMap Statement.symbols ++ .punct .rbrace :: rest)
      (· ≠ .ident "precondition") := by
    cases body : t.body with
    | nil => exact begins_noWord .rbrace rest _
    | cons s more =>
        rw [List.flatMap_cons, List.append_assoc]
        refine (statement_begins s _ (writable.body s (body ▸ List.mem_cons_self))).mono ?_
        rintro _ ⟨word, rfl, other⟩ same
        exact other (Token.ident.inj same)
  simp only [Transition.symbols, enclosed, List.cons_append, List.append_assoc, List.nil_append]
  refine (reads_expectWord "transition" _).bind fun start _ => ?_
  refine (reads_route t short _).bind ?_
  rintro ⟨source, target⟩ ⟨(sameSource : source.bare = _), (sameTarget : target.bare = _)⟩
  refine (reads_expectWord "on" _).bind fun _ _ => ?_
  refine (reads_trigger t.trigger _ (begins_mark _ (by decide))).bind ?_
  rintro ⟨trigger, place⟩ rfl
  refine (reads_expect .lbrace _).bind fun _ _ => ?_
  refine (reads_remaining _).bind fun bound enough => ?_
  refine (reads_preconditions t.preconditions bound _ writable.preconditions bodyBegins
    enough).bind fun preconditions samePreconditions => ?_
  refine (reads_remaining _).bind fun bound enough => ?_
  refine (reads_body t.body bound rest writable.body enough).bind fun body sameBody =>
    .pure _ _ _ ?_
  simp only [Transition.bare, samePreconditions, sameBody, sameSource, sameTarget]

theorem reads_dataVariable (d : DataVariable) (rest : List Symbol) (writable : d.Writable) :
    Reads dataVariable (d.symbols ++ rest) rest (·.bare = d.bare) := by
  simp only [DataVariable.symbols, List.cons_append, List.append_assoc, List.nil_append]
  refine (reads_name _ d.name _).bind fun name sameName => ?_
  refine (reads_expect .colon _).bind fun _ _ => ?_
  refine (reads_type d.ty _).bind fun ty sameType => ?_
  refine (reads_expect .eq _).bind fun _ _ => ?_
  refine (reads_expression_until d.initializer .semicolon rest writable.initializer (by decide)
    (by decide)).bind fun initializer same => ?_
  refine (reads_expect .semicolon rest).bind fun _ _ => .pure _ _ _ ?_
  rw [DataVariable.bare, DataVariable.bare, sameName, sameType, same]

theorem reads_state (s : Name) (rest : List Symbol) :
    Reads state (stateSymbols s ++ rest) rest (·.bare = s.bare) := by
  refine (reads_name _ s.text _).bind fun name same => ?_
  exact (reads_expect .semicolon rest).bind fun _ _ => .pure _ _ _ (bare_of_text same)

def Part.bare : Part → Part
  | data declared => data (declared.map DataVariable.bare)
  | states names => states (names.map Name.bare)
  | transition t => transition t.bare

theorem reads_part (style : Style) (p : Part) (rest : List Symbol) (writable : p.Writable) :
    Reads part (style.partSymbols p ++ rest) rest
      fun found => ∃ a, found = some a ∧ a.bare = p.bare := by
  cases p with
  | data declared =>
      refine .peeked _ rfl fun lexeme made behind => ?_
      simp only [made]
      refine (reads_take lexeme _ _ behind).bind fun _ _ => ?_
      refine (reads_block dataVariable DataVariable.symbols DataVariable.bare DataVariable.bare
        declared rest
        (fun d member more => reads_dataVariable d more (writable d member))
        (fun d _ more => begins_word _ _ _) (fun d _ => List.cons_ne_nil _ _)).bind
          fun found same => ?_
      exact .pure _ _ _ ⟨_, rfl, congrArg Part.data same⟩
  | states names =>
      refine .peeked _ rfl fun lexeme made behind => ?_
      simp only [made]
      refine (reads_take lexeme _ _ behind).bind fun _ _ => ?_
      refine (reads_block state stateSymbols Name.bare Name.bare names rest
        (fun s _ more => reads_state s more) (fun s _ more => begins_word _ _ _)
        (fun s _ => List.cons_ne_nil _ _)).bind fun found same => ?_
      exact .pure _ _ _ ⟨_, rfl, congrArg Part.states same⟩
  | transition t =>
      refine .peeked _ rfl fun lexeme made behind => ?_
      simp only [made]
      exact (reads_transition t (style.short t) rest writable).bind fun a same =>
        .pure _ _ _ ⟨_, rfl, congrArg Part.transition same⟩

theorem reads_claims (names : List String) (rest : List Symbol)
    (apart : Begins rest (· ≠ .punct .dot)) (ended : Begins rest (· ≠ .punct .comma)) :
    Reads claims (names.flatMap Style.claimSymbols ++ rest) rest (· = names) := by
  refine (reads_remaining _).bind fun bound enough => ?_
  have sizes := length_le_flatMap Style.claimSymbols names fun _ _ => List.cons_ne_nil _ _
  rw [List.length_append] at enough
  refine (reads_collect _ Style.claimSymbols id id (Begins · (· ≠ .punct .dot)) names rest
    rest bound ?_ (fun _ _ _ => begins_mark _ (by decide)) apart ?_
    (by omega)).mono fun found same => by
      simpa using same
  · intro name _ more apart
    refine .whenTrue (reads_eat .comma _) ?_
    refine (reads_expectWord "well" _).bind fun _ _ => ?_
    refine (reads_expect .minus _).bind fun _ _ => ?_
    refine (reads_expectWord "known" _).bind fun _ _ => ?_
    refine (reads_expectWord "name" _).bind fun _ _ => ?_
    exact (reads_dottedName _ name more apart).bind fun found same => .pure _ _ _ ⟨_, rfl, same⟩
  · exact .whenFalse (reads_eat_other .comma rest ended) (.pure _ _ _ rfl)

theorem reads_interfaces (interfaces : List Name) (rest : List Symbol) (some : interfaces ≠ [])
    (apart : Begins rest (· ≠ .punct .dot)) (ended : Begins rest (· ≠ .punct .comma)) :
    Reads Reader.interfaces (commaSeparated (interfaces.map fun i => dotted i.text) ++ rest) rest
      fun found => found.map Name.bare = interfaces.map Name.bare := by
  obtain ⟨first, others, rfl⟩ := List.exists_cons_of_ne_nil some
  have sizes := length_le_flatMap (fun i : Name => .punct .comma :: dotted i.text) others
    fun _ _ => List.cons_ne_nil _ _
  -- Behind an interface there is a comma or what follows them all.
  have firstApart : Begins (others.flatMap (fun i => .punct .comma :: dotted i.text) ++ rest)
      (· ≠ .punct .dot) := by
    cases others with
    | nil => exact apart
    | cons next more => exact begins_mark _ (by decide)
  rw [commaSeparated, List.map_cons, intercalate_cons, List.flatMap_map, List.append_assoc]
  refine (reads_dottedName _ first.text _ firstApart).bind fun found same => ?_
  refine (reads_remaining _).bind fun bound enough => ?_
  rw [List.length_append] at enough
  refine (reads_collect _ (fun i : Name => .punct .comma :: dotted i.text) Name.bare Name.bare
    (Begins · (· ≠ .punct .dot)) others rest rest bound ?_ (fun _ _ _ => begins_mark _ (by decide))
    apart ?_ (Nat.le_trans sizes (Nat.le_of_add_right_le enough))).bind fun more sameOthers => ?_
  · intro i _ more apart
    refine .whenTrue (reads_eat .comma _) ?_
    exact (reads_dottedName _ i.text more apart).bind fun found same =>
      .pure _ _ _ ⟨_, rfl, bare_of_text same⟩
  · exact .whenFalse (reads_eat_other .comma rest ended) (.pure _ _ _ rfl)
  · exact .pure _ _ _ (by rw [List.map_cons, bare_of_text same, sameOthers, List.map_cons])

theorem part_dataVariables (parts : List Part) :
    (parts.flatMap Part.dataVariables).map DataVariable.bare =
      (parts.map Part.bare).flatMap Part.dataVariables := by
  rw [List.map_flatMap, List.flatMap_map]
  exact congrArg (parts.flatMap ·) (funext fun p => by cases p <;> rfl)

theorem part_names (parts : List Part) :
    (parts.flatMap Part.names).map Name.bare = (parts.map Part.bare).flatMap Part.names := by
  rw [List.map_flatMap, List.flatMap_map]
  exact congrArg (parts.flatMap ·) (funext fun p => by cases p <;> rfl)

theorem part_transitions (parts : List Part) :
    (parts.filterMap Part.transition?).map Transition.bare =
      (parts.map Part.bare).filterMap Part.transition? := by
  rw [List.map_filterMap, List.filterMap_map]
  exact congrArg (parts.filterMap ·) (funext fun p => by cases p <;> rfl)

theorem reads_object (style : Style) (o : Object) (rest : List Symbol) (writable : o.Writable) :
    Reads object (style.objectSymbols o ++ rest) rest (·.bare = o.bare) := by
  simp only [Style.objectSymbols, enclosed, List.cons_append, List.append_assoc, List.nil_append]
  refine (reads_expectWord "object" _).bind fun start _ => ?_
  refine (reads_expectWord "at" _).bind fun _ _ => ?_
  refine (reads_objectPath o.path _).bind fun path samePath => ?_
  refine (reads_claims o.names _ (begins_word _ _ _) (begins_word _ _ _)).bind
    fun names sameNames => ?_
  refine (reads_expectWord "implements" _).bind fun _ _ => ?_
  refine (reads_interfaces o.interfaces _ writable.implementing (begins_mark _ (by decide))
    (begins_mark _ (by decide))).bind fun interfaces sameInterfaces => ?_
  refine (reads_expect .lbrace _).bind fun _ _ => ?_
  refine (reads_remaining _).bind fun bound enough => ?_
  have sizes := length_le_flatMap style.partSymbols (style.parts o) fun p _ => by
    cases p <;> exact List.cons_ne_nil _ _
  rw [List.length_append] at enough
  refine (reads_collect part style.partSymbols Part.bare Part.bare (fun _ => True)
    (style.parts o) _ rest bound
    (fun p member more _ => reads_part style p more (style.parts_writable o writable p member))
    (fun _ _ _ => trivial) trivial ?_ (by omega)).bind fun parts sameParts => ?_
  · refine .peeked _ rfl fun lexeme made behind => ?_
    simp only [made]
    exact (reads_take lexeme _ rest behind).bind fun _ _ => .pure _ _ _ rfl
  · refine .pure _ _ _ ?_
    simp only [Object.bare, samePath, sameNames, sameInterfaces, part_dataVariables, part_names,
      part_transitions, sameParts]
    rw [← part_dataVariables, ← part_names, ← part_transitions, style.data, style.states,
      style.transitions]

theorem reads_program (style : Style) (objects : List Object)
    (writable : ∀ o ∈ objects, o.Writable) :
    Reads program (objects.flatMap style.objectSymbols) []
      fun found => found.map Object.bare = objects.map Object.bare := by
  refine (reads_remaining _).bind fun bound enough => ?_
  have sizes := length_le_flatMap style.objectSymbols objects fun _ _ => List.cons_ne_nil _ _
  rw [← List.append_nil (objects.flatMap style.objectSymbols)]
  refine reads_collect _ style.objectSymbols Object.bare Object.bare (fun _ => True) objects []
    [] bound ?_ (fun _ _ _ => trivial) trivial ?_ (Nat.le_trans sizes enough)
  · intro o member more _
    refine .peeked _ rfl fun lexeme made _ => ?_
    simp only [made]
    exact (reads_object style o more (writable o member)).bind fun a same =>
      .pure _ _ _ ⟨a, rfl, same⟩
  · refine .peeked _ rfl fun lexeme made _ => ?_
    simp only [made]
    exact .pure _ _ _ rfl

end Reader

/-- A program that is written out is read back as it was, but for the places in the text,
whatever the layout and whatever the order in which the parts of its objects are given. -/
theorem parse_write (style : Style) (layout : Layout) (objects : List Object)
    (writable : ∀ o ∈ objects, o.Writable) :
    ∃ found, parse (style.write layout objects) = .ok found ∧
      found.map Object.bare = objects.map Object.bare := by
  have valid := AllValid.flatMap style.objectSymbols objects
    fun o member => style.objectSymbols_valid o (writable o member)
  have shown : Shows (objects.flatMap style.objectSymbols)
      (Cursor.start (style.write layout objects)).rest := by
    rw [Style.write, Layout.text, Cursor.start, String.toList_ofList]
    exact spell_shows layout _ 0 layout.lead valid
  obtain ⟨found, last, read, same, -⟩ := Reader.reads_program style objects writable _ shown
  exact ⟨found, by rw [parse, read]; rfl, same⟩

/-- First the data, then the states, then the transitions. -/
def Style.inOrder : Style where
  parts o := .data o.data :: .states o.states :: o.transitions.map .transition
  data o := by simp [Reader.Part.dataVariables, List.flatMap_map]
  states o := by simp [Reader.Part.names, List.flatMap_map]
  transitions o := by
    rw [List.filterMap_cons_none rfl, List.filterMap_cons_none rfl, List.filterMap_map]
    exact List.filterMap_some
  short _ := true

def Layout.commented : Layout where
  lead := []
  gap _ := ⟨' ', rfl, [.block [' ', '*', ' '] (by decide), .blank '\n' rfl]⟩
  trail := none
  radix _ := .hexadecimal true

def writtenLamp : Object where
  path := "/lamp"
  names := ["test.lamp"]
  interfaces := [⟨"test.Lamp", nowhere⟩]
  data := [⟨"x", .int .byte, .integer nowhere 10, nowhere⟩]
  states := [⟨"off", nowhere⟩]
  transitions :=
    [{ source := ⟨"off", nowhere⟩
       target := ⟨"off", nowhere⟩
       trigger := .method "Light"
       triggerPosition := nowhere
       preconditions := []
       body := [.assign nowhere "x" (.binary nowhere .mul (.integer nowhere 10)
         (.binary nowhere .sub (.integer nowhere 1) (.var nowhere "x")))]
       position := nowhere }]
  position := nowhere

theorem writtenLamp_read :
    writtenLamp.Writable ∧
      ∃ found, parse (Style.inOrder.write .commented [writtenLamp]) = .ok found ∧
        found.map Object.bare = [writtenLamp].map Object.bare := by
  have ten : Expr.Writable (.integer nowhere 10) := .integer nowhere (by decide)
  have one : Expr.Writable (.integer nowhere 1) := .integer nowhere (by decide)
  have x : Expr.Writable (.var nowhere "x") := .var nowhere (by decide)
  have assign : Statement.Writable (.assign nowhere "x" (.binary nowhere .mul (.integer nowhere 10)
      (.binary nowhere .sub (.integer nowhere 1) (.var nowhere "x")))) :=
    ⟨by decide, by decide, .binary nowhere .mul ten (.binary nowhere .sub one x)⟩
  have writable : writtenLamp.Writable :=
    { path := by decide
      names := List.forall_mem_singleton.mpr (by decide)
      implementing := List.cons_ne_nil _ _
      interfaces := List.forall_mem_singleton.mpr (by decide)
      data := List.forall_mem_singleton.mpr ⟨by decide, trivial, ten⟩
      states := List.forall_mem_singleton.mpr (by decide)
      transitions := List.forall_mem_singleton.mpr
        ⟨by decide, by decide, (by decide : isDotted "Light" = true), nofun,
          List.forall_mem_singleton.mpr assign⟩ }
  exact ⟨writable, parse_write .inOrder .commented [writtenLamp]
    fun _ member => List.mem_singleton.mp member ▸ writable⟩

end SimBus.Surface
