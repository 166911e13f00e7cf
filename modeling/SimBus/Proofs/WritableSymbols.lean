import SimBus.Proofs.ReaderRules
/-!
The symbols of programs that can be written are ones that can be read: their words are
words, their integers are small enough, and their paths are no comments.
-/

namespace SimBus.Surface

def AllValid (symbols : List Symbol) : Prop := ∀ s ∈ symbols, s.Valid

namespace AllValid

@[simp]
theorem nil : AllValid [] := nofun

@[simp]
theorem cons_iff (s : Symbol) (rest : List Symbol) :
    AllValid (s :: rest) ↔ s.Valid ∧ AllValid rest :=
  List.forall_mem_cons

@[simp]
theorem append_iff (symbols rest : List Symbol) :
    AllValid (symbols ++ rest) ↔ AllValid symbols ∧ AllValid rest :=
  List.forall_mem_append

theorem flatMap {α : Type} (symbols : α → List Symbol) (items : List α)
    (each : ∀ item ∈ items, AllValid (symbols item)) : AllValid (items.flatMap symbols) := by
  intro s member
  obtain ⟨item, inList, inItem⟩ := List.mem_flatMap.mp member
  exact each item inList s inItem

theorem intercalate (mark : Punct) (parts : List (List Symbol))
    (each : ∀ part ∈ parts, AllValid part) : AllValid ([Symbol.punct mark].intercalate parts) := by
  cases parts with
  | nil => exact nil
  | cons first others =>
      obtain ⟨validFirst, validOthers⟩ := List.forall_mem_cons.mp each
      rw [Reader.intercalate_cons, append_iff]
      refine ⟨validFirst, flatMap _ _ fun part member => ?_⟩
      exact (append_iff _ _).mpr ⟨(cons_iff _ _).mpr ⟨trivial, nil⟩, validOthers part member⟩

theorem commaSeparated_map {α : Type} (symbols : α → List Symbol) (items : List α)
    (each : ∀ item ∈ items, AllValid (symbols item)) :
    AllValid (commaSeparated (items.map symbols)) :=
  intercalate .comma _ fun _ member => by
    obtain ⟨item, inList, rfl⟩ := List.mem_map.mp member
    exact each item inList

@[simp]
theorem enclosed_iff (opening closing : Punct) (inner : List Symbol) :
    AllValid (enclosed opening closing inner) ↔ AllValid inner := by
  simp [enclosed, Symbol.Valid]

end AllValid

theorem dotted_valid (name : String) (isDotted : isDotted name = true) :
    AllValid (dotted name) := by
  refine AllValid.intercalate .dot _ fun part member => ?_
  obtain ⟨chars, inName, rfl⟩ := List.mem_map.mp member
  have word := List.all_eq_true.mp isDotted chars inName
  simpa [Symbol.Valid] using word

theorem Expr.symbols_valid (e : Expr) (level : Nat) (writable : e.Writable) :
    AllValid (e.symbols level) := by
  induction writable generalizing level with
  | bool pos flag => cases flag <;> simp [symbols, Symbol.Valid] <;> decide
  | integer pos inRange => simpa [symbols, Symbol.Valid] using inRange
  | string => simp [symbols, Symbol.Valid]
  | var pos operand =>
      simp only [isOperand, Bool.and_eq_true] at operand
      simpa [symbols, Symbol.Valid] using operand.1
  | call pos operand _ ih =>
      simp only [isOperand, Bool.and_eq_true] at operand
      have items := AllValid.commaSeparated_map _ _ fun item member => ih item member 0
      simpa [symbols, Symbol.Valid, symbolsOfList_eq, argumentSymbols] using ⟨operand.1, items⟩
  | choice pos _ ih =>
      have items := AllValid.commaSeparated_map _ _ fun item member => ih item member 0
      simpa [symbols, Symbol.Valid, symbolsOfList_eq, argumentSymbols] using ⟨by decide, items⟩
  | tuple pos _ ih =>
      have items := AllValid.commaSeparated_map _ _ fun item member => ih item member 0
      simp only [symbols, symbolsOfList_eq, tupleSymbols, AllValid.enclosed_iff,
        AllValid.append_iff]
      refine ⟨items, ?_⟩
      split <;> simp [Symbol.Valid]
  | array pos _ ih =>
      have items := AllValid.commaSeparated_map _ _ fun item member => ih item member 0
      simpa [symbols, symbolsOfList_eq] using items
  | dict pos _ _ keys values =>
      have items := AllValid.commaSeparated_map entrySymbols _ fun entry member =>
        (AllValid.append_iff _ _).mpr ⟨keys entry member 0,
          (AllValid.cons_iff _ _).mpr ⟨trivial, values entry member 0⟩⟩
      simpa [symbols, symbolsOfEntries_eq] using items
  | variant pos _ ih => simpa [symbols] using ih _
  | annotated pos basic _ ih => simpa [symbols, Symbol.Valid] using ⟨basic, ih _⟩
  | not pos _ ih | negate pos _ ih => simpa [symbols, Symbol.Valid] using ih _
  | @binary pos op lhs rhs _ _ left right =>
      have operation : AllValid (lhs.symbols (levelOf op) ++ .punct (markOf op) ::
          rhs.symbols (levelOf op + 1)) :=
        (AllValid.append_iff _ _).mpr ⟨left _, (AllValid.cons_iff _ _).mpr ⟨trivial, right _⟩⟩
      rw [symbols]
      split
      · exact (AllValid.enclosed_iff _ _ _).mpr operation
      · exact operation

theorem arguments_valid (arguments : List Expr) (writable : ∀ item ∈ arguments, item.Writable) :
    AllValid (argumentSymbols (arguments.map (Expr.symbols 0))) := by
  rw [argumentSymbols, AllValid.enclosed_iff]
  exact AllValid.commaSeparated_map _ _ fun item member =>
    item.symbols_valid 0 (writable item member)

theorem keyword_valid (word : String) (isWord : isWord word.toList = true) :
    (Symbol.word word).Valid := isWord

theorem Statement.symbols_valid (s : Statement) (writable : s.Writable) : AllValid s.symbols := by
  cases s with
  | assign pos name value =>
      obtain ⟨word, -, expressible⟩ := writable
      have inner := value.symbols_valid 0 expressible
      simp [symbols, Symbol.Valid, word, inner]
  | reply pos arguments =>
      have inner := arguments_valid arguments writable
      simpa [symbols, Symbol.Valid, inner] using keyword_valid "reply" (by decide)
  | emit pos signal arguments =>
      have name := dotted_valid signal writable.1
      have inner := arguments_valid arguments writable.2
      simpa [symbols, Symbol.Valid, name, inner] using keyword_valid "emit" (by decide)
  | throw pos error message =>
      have name := dotted_valid error writable.1
      have inner : AllValid (message.elim [] (Expr.symbols 0)) := by
        cases message with
        | none => exact AllValid.nil
        | some e => exact e.symbols_valid 0 (writable.2 e rfl)
      simpa [symbols, Symbol.Valid, name, inner] using keyword_valid "throw" (by decide)

theorem Precondition.symbols_valid (p : Precondition) (writable : p.Writable) :
    AllValid p.symbols := by
  obtain ⟨error, condition⟩ := p
  obtain ⟨named, expressible⟩ := writable
  have inner := condition.symbols_valid 0 expressible
  have name : AllValid (error.elim [] fun error => .word "throwing" :: dotted error) := by
    cases error with
    | none => exact AllValid.nil
    | some error =>
        exact (AllValid.cons_iff _ _).mpr
          ⟨keyword_valid "throwing" (by decide), dotted_valid error (named error rfl)⟩
  simpa [symbols, guardSymbols, Symbol.Valid, name, inner] using
    keyword_valid "precondition" (by decide)

theorem Trigger.symbols_valid (t : Trigger) (writable : t.Writable) : AllValid t.symbols := by
  cases t with
  | method name =>
      exact (AllValid.cons_iff _ _).mpr
        ⟨keyword_valid "method" (by decide), dotted_valid name writable⟩
  | property name =>
      exact (AllValid.cons_iff _ _).mpr
        ⟨keyword_valid "property" (by decide), dotted_valid name writable⟩
  | arbitrary =>
      exact (AllValid.cons_iff _ _).mpr ⟨keyword_valid "arbitrary" (by decide), AllValid.nil⟩

theorem Transition.route_valid (t : Transition) (short : Bool) (writable : t.Writable) :
    AllValid (t.route short) := by
  have source : (Symbol.word t.source.text).Valid := writable.source
  have target : (Symbol.word t.target.text).Valid := writable.target
  rw [route]
  split
  · simpa [source] using keyword_valid "inside" (by decide)
  · simpa [source, target] using
      ⟨keyword_valid "from" (by decide), keyword_valid "to" (by decide)⟩

theorem Transition.symbols_valid (t : Transition) (short : Bool) (writable : t.Writable) :
    AllValid (t.symbols short) := by
  have route := t.route_valid short writable
  have trigger := t.trigger.symbols_valid writable.trigger
  have preconditions := AllValid.flatMap Precondition.symbols t.preconditions
    fun p member => p.symbols_valid (writable.preconditions p member)
  have body := AllValid.flatMap Statement.symbols t.body
    fun s member => s.symbols_valid (writable.body s member)
  simpa [symbols, route, trigger, preconditions, body] using
    ⟨keyword_valid "transition" (by decide), keyword_valid "on" (by decide)⟩

theorem DataVariable.symbols_valid (d : DataVariable) (writable : d.Writable) :
    AllValid d.symbols := by
  have inner := d.initializer.symbols_valid 0 writable.initializer
  simp [symbols, Symbol.Valid, inner, writable.name, writable.ty]

theorem Style.partSymbols_valid (style : Style) (p : Reader.Part) (writable : p.Writable) :
    AllValid (style.partSymbols p) := by
  cases p with
  | data declared =>
      have inner := AllValid.flatMap DataVariable.symbols declared
        fun d member => d.symbols_valid (writable d member)
      simpa [partSymbols, inner] using keyword_valid "data" (by decide)
  | states names =>
      have inner := AllValid.flatMap stateSymbols names fun s member => by
        have word : isWord s.text.toList = true := writable s member
        simp [stateSymbols, word, Symbol.Valid]
      simpa [partSymbols, inner] using keyword_valid "states" (by decide)
  | transition t => exact t.symbols_valid (style.short t) writable

theorem Style.claimSymbols_valid (name : String) (isDotted : isDotted name = true) :
    AllValid (claimSymbols name) := by
  have inner := dotted_valid name isDotted
  simpa [claimSymbols, Symbol.Valid, inner] using
    ⟨keyword_valid "well" (by decide), keyword_valid "known" (by decide),
      keyword_valid "name" (by decide)⟩

theorem Style.objectSymbols_valid (style : Style) (o : Object) (writable : o.Writable) :
    AllValid (style.objectSymbols o) := by
  have path : (Symbol.path o.path).Valid := writable.path
  have claims := AllValid.flatMap claimSymbols o.names
    fun name member => claimSymbols_valid name (writable.names name member)
  have interfaces := AllValid.commaSeparated_map (fun i : Name => dotted i.text) o.interfaces
    fun i member => dotted_valid i.text (writable.interfaces i member)
  have parts := AllValid.flatMap style.partSymbols (style.parts o)
    fun p member => style.partSymbols_valid p (style.parts_writable o writable p member)
  simpa [objectSymbols, path, claims, interfaces, parts] using
    ⟨keyword_valid "object" (by decide), keyword_valid "at" (by decide),
      keyword_valid "implements" (by decide)⟩

end SimBus.Surface
