import SimBus.Proofs.ReaderSteps
/-!
All readers of the grammar take their steps one by one: after a look at a token they
take it or leave it, and go on behind it or in front of it.
-/

namespace SimBus.Surface.Reader

variable {α β : Type}

/-- The reader does nothing but the steps that readers consist of. -/
abbrev Stepwise (reader : Reader α) : Prop := Alike none reader reader

variable {seen : Option (Lexeme × Lexeme)}

theorem alike_ite {p : Prop} [Decidable p] {yes yes' no no' : Reader α}
    (holds : p → Alike seen yes yes') (fails : ¬ p → Alike seen no no') :
    Alike seen (if p then yes else no) (if p then yes' else no') := by
  by_cases decided : p
  · simpa only [decided, ↓reduceIte] using holds decided
  · simpa only [decided, ↓reduceIte] using fails decided

theorem alike_taking {lexeme lexeme' : Lexeme} {next next' : Reader α}
    (behind : Alike none next next') : Alike (some (lexeme, lexeme'))
      (take lexeme >>= fun _ => next) (take lexeme' >>= fun _ => next') :=
  .bind .take fun _ => behind

/-! Single tokens. -/

theorem stepwise_nextIs (mark : Punct) : Stepwise (nextIs mark) := by
  refine .look fun token _ _ _ => ?_
  cases token <;> exact .pure _

theorem stepwise_eat (mark : Punct) : Stepwise (eat mark) := by
  refine .look fun token _ _ _ => ?_
  cases token with
  | punct found => exact alike_ite (fun _ => alike_taking (.pure true)) fun _ => .pure false
  | _ => exact .pure false

theorem alike_unexpected (token : Token) (position : Position) (after after' : Cursor)
    (expected : String) : Alike seen (unexpected ⟨token, position, after⟩ expected : Reader α)
      (unexpected ⟨token, position, after'⟩ expected) := .fail _ _ _

theorem stepwise_expect (mark : Punct) : Stepwise (expect mark) := by
  refine .look fun token _ _ _ => ?_
  cases token with
  | punct found => exact alike_ite (fun _ => .take) fun _ => alike_unexpected _ _ _ _ _
  | _ => exact alike_unexpected _ _ _ _ _

theorem stepwise_eatWord (word : String) : Stepwise (eatWord word) := by
  refine .look fun token _ _ _ => ?_
  cases token with
  | ident found => exact alike_ite (fun _ => alike_taking (.pure true)) fun _ => .pure false
  | _ => exact .pure false

theorem stepwise_expectWord (word : String) : Stepwise (expectWord word) := by
  refine .look fun token position _ _ => ?_
  cases token with
  | ident found =>
      exact alike_ite (fun _ => alike_taking (.pure position)) fun _ => alike_unexpected _ _ _ _ _
  | _ => exact alike_unexpected _ _ _ _ _

theorem stepwise_name (what : String) : Stepwise (name what) := by
  refine .look fun token position _ _ => ?_
  cases token with
  | ident found => exact alike_taking (.pure _)
  | _ => exact alike_unexpected _ _ _ _ _

/-! Lists. -/

theorem stepwise_collect {step : Reader (Option α)} (single : Stepwise step) (bound : Nat) :
    Stepwise (collect step bound) := by
  induction bound with
  | zero =>
      refine .bind single fun found => ?_
      cases found <;> exact .pure _
  | succ bound ih =>
      refine .bind single fun found => ?_
      cases found with
      | none => exact .pure _
      | some item => exact .bind ih fun items => .pure _

theorem stepwise_commaList (close : Punct) {item : Reader α} (single : Stepwise item)
    (bound : Nat) : Stepwise (commaList close item bound) := by
  induction bound with
  | zero =>
      refine .bind (stepwise_eat close) fun closed => alike_ite (fun _ => .pure _) fun _ => ?_
      exact .bind single fun last => .pure _
  | succ bound ih =>
      refine .bind (stepwise_eat close) fun closed => alike_ite (fun _ => .pure _) fun _ => ?_
      refine .bind single fun first => .bind (stepwise_eat .comma) fun more => ?_
      exact alike_ite (fun _ => .bind ih fun others => .pure _) fun _ =>
        .bind (stepwise_expect close) fun _ => .pure _

theorem stepwise_argumentTail {item : Reader α} (single : Stepwise item) (bound : Nat) :
    Stepwise (argumentTail item bound) := by
  induction bound with
  | zero => exact .bind single fun last => .pure _
  | succ bound ih =>
      refine .bind single fun first => .bind (stepwise_eat .rparen) fun closed => ?_
      refine alike_ite (fun _ => .pure _) fun _ => .bind (stepwise_expect .comma) fun _ => ?_
      refine .bind (stepwise_eat .rparen) fun closed => alike_ite (fun _ => .pure _) fun _ => ?_
      exact .bind ih fun others => .pure _

theorem stepwise_argumentList {item : Reader α} (single : Stepwise item) :
    Stepwise (argumentList item) := by
  refine .bind (stepwise_expect .lparen) fun _ => .bind (stepwise_eat .rparen) fun closed => ?_
  exact alike_ite (fun _ => .pure _) fun _ => .bind .remaining fun bound =>
    stepwise_argumentTail single bound

/-! Names. -/

theorem stepwise_dottedName (what : String) : Stepwise (dottedName what) := by
  refine .bind (stepwise_name what) fun first => .bind .remaining fun bound => ?_
  refine .bind (stepwise_collect ?_ bound) fun others => .pure _
  refine .bind (stepwise_eat .dot) fun more => alike_ite (fun _ => ?_) fun _ => .pure _
  exact .bind (stepwise_name what) fun part => .pure _

/-! Expressions. -/

theorem stepwise_eatOperator (level : Level) : Stepwise (eatOperator level) := by
  refine .look fun token _ _ _ => ?_
  cases token with
  | punct mark =>
      dsimp only
      cases level mark with
      | none => exact .pure _
      | some op => exact alike_taking (.pure _)
  | _ => exact .pure _

theorem stepwise_operatorChain (level : Level) {operand : Reader Expr} (single : Stepwise operand)
    (bound : Nat) (lhs : Expr) : Stepwise (operatorChain level operand bound lhs) := by
  induction bound generalizing lhs with
  | zero => exact .pure lhs
  | succ bound ih =>
      refine .bind (stepwise_eatOperator level) fun found => ?_
      cases found with
      | none => exact .pure lhs
      | some op => exact .bind single fun rhs => ih _

theorem stepwise_operation {operand : Reader Expr} (single : Stepwise operand)
    (levels : List Level) : Stepwise (operation operand levels) := by
  induction levels with
  | nil => exact single
  | cons level tighter ih =>
      exact .bind ih fun lhs => .bind .remaining fun bound =>
        stepwise_operatorChain level ih bound lhs

theorem stepwise_group (start : Position) {item : Reader Expr} (single : Stepwise item) :
    Stepwise (group start item) := by
  refine .bind (stepwise_eat .rparen) fun closed => alike_ite (fun _ => .pure _) fun _ => ?_
  refine .bind single fun first => .bind (stepwise_eat .rparen) fun closed => ?_
  refine alike_ite (fun _ => .pure _) fun _ => .bind (stepwise_expect .comma) fun _ => ?_
  exact .bind .remaining fun bound =>
    .bind (stepwise_commaList .rparen single bound) fun others => .pure _

theorem stepwise_dictEntry {item : Reader Expr} (single : Stepwise item) :
    Stepwise (dictEntry item) :=
  .bind single fun _ => .bind (stepwise_expect .colon) fun _ => .bind single fun _ => .pure _

theorem stepwise_primary {unary : Reader Expr} (single : Stepwise unary) :
    Stepwise (primary unary) := by
  have item := stepwise_operation single levels
  refine .look fun token start _ _ => alike_taking ?_
  cases token with
  | integer | double | string => exact .pure _
  | ident name =>
      refine alike_ite (fun _ => .pure _) fun _ => alike_ite (fun _ => .pure _) fun _ => ?_
      refine alike_ite (fun _ => .bind (stepwise_argumentList item) fun _ => .pure _) fun _ => ?_
      refine .bind (stepwise_nextIs .lparen) fun called => alike_ite (fun _ => ?_) fun _ => .pure _
      exact .bind (stepwise_argumentList item) fun _ => .pure _
  | punct mark =>
      cases mark with
      | lparen => exact stepwise_group start item
      | lbracket =>
          exact .bind .remaining fun bound =>
            .bind (stepwise_commaList .rbracket item bound) fun _ => .pure _
      | lbrace =>
          exact .bind .remaining fun bound =>
            .bind (stepwise_commaList .rbrace (stepwise_dictEntry item) bound) fun _ => .pure _
      | lt =>
          exact .bind (stepwise_operation single additiveLevels) fun inner =>
            .bind (stepwise_expect .gt) fun _ => .pure _
      | _ => exact alike_unexpected _ _ _ _ _
  | endOfText => exact alike_unexpected _ _ _ _ _

theorem stepwise_unaryStep {unary : Reader Expr} (single : Stepwise unary) :
    Stepwise (unaryStep unary) := by
  refine .look fun token start _ _ => ?_
  cases token with
  | punct mark =>
      cases mark with
      | bang | minus => exact alike_taking (.bind single fun _ => .pure _)
      | «at» =>
          exact alike_taking (.bind .type fun ty => .bind single fun _ => .pure _)
      | _ => exact .stay (stepwise_primary single)
  | _ => exact .stay (stepwise_primary single)

theorem stepwise_unary (bound : Nat) : Stepwise (unary bound) := by
  induction bound with
  | zero =>
      exact stepwise_unaryStep (.look fun _ _ _ _ => alike_unexpected _ _ _ _ _)
  | succ bound ih => exact stepwise_unaryStep ih

theorem stepwise_expression : Stepwise expression :=
  .bind .remaining fun bound => stepwise_operation (stepwise_unary bound) levels

/-! Transitions. -/

theorem stepwise_statement : Stepwise statement := by
  have arguments := stepwise_argumentList stepwise_expression
  have ended (parsed : Statement) :
      Stepwise (pure parsed >>= fun parsed => expect .semicolon >>= fun _ => pure parsed) :=
    .bind (.pure parsed) fun _ => .bind (stepwise_expect .semicolon) fun _ => .pure _
  refine .look fun token start after after' => ?_
  dsimp only
  split
  · exact alike_taking (.bind arguments fun _ => ended _)
  · exact alike_taking (.bind (stepwise_dottedName _) fun _ => .bind arguments fun _ => ended _)
  · refine alike_taking (.bind (stepwise_dottedName _) fun error => ?_)
    refine .bind (stepwise_nextIs .semicolon) fun bare => alike_ite (fun _ => ended _) fun _ => ?_
    exact .bind stepwise_expression fun _ => ended _
  · exact alike_taking (.bind (stepwise_expect .eq) fun _ =>
      .bind stepwise_expression fun _ => ended _)
  · exact .bind (alike_unexpected _ _ _ _ _) fun _ =>
      .bind (stepwise_expect .semicolon) fun _ => .pure _

theorem stepwise_precondition : Stepwise precondition := by
  have braced (error : Option String) : Stepwise (pure error >>= fun error =>
      expect .lbrace >>= fun _ => expression >>= fun condition => expect .rbrace >>= fun _ =>
        pure (⟨error, condition⟩ : Precondition)) :=
    .bind (.pure error) fun _ => .bind (stepwise_expect .lbrace) fun _ =>
      .bind stepwise_expression fun _ => .bind (stepwise_expect .rbrace) fun _ => .pure _
  exact .bind (stepwise_eatWord _) fun named => alike_ite
    (fun _ => .bind (stepwise_dottedName _) fun _ => braced _) fun _ => braced _

theorem stepwise_route : Stepwise route := by
  refine .bind (stepwise_eatWord _) fun inside => alike_ite (fun _ => ?_) fun _ => ?_
  · exact .bind (stepwise_name _) fun _ => .pure _
  · exact .bind (stepwise_expectWord _) fun _ => .bind (stepwise_name _) fun _ =>
      .bind (stepwise_expectWord _) fun _ => .bind (stepwise_name _) fun _ => .pure _

theorem stepwise_trigger : Stepwise trigger := by
  refine .look fun token position after after' => ?_
  dsimp only
  split
  · exact alike_taking (.bind (stepwise_dottedName _) fun _ => .pure _)
  · exact alike_taking (.bind (stepwise_dottedName _) fun _ => .pure _)
  · exact alike_taking (.pure _)
  · exact alike_unexpected _ _ _ _ _

theorem stepwise_transition : Stepwise transition := by
  refine .bind (stepwise_expectWord _) fun start => .bind stepwise_route fun ends => ?_
  refine .bind (stepwise_expectWord _) fun _ => .bind stepwise_trigger fun trigger => ?_
  refine .bind (stepwise_expect .lbrace) fun _ => .bind .remaining fun bound => ?_
  refine .bind (stepwise_collect ?_ bound) fun preconditions => ?_
  · exact .bind (stepwise_eatWord _) fun more => alike_ite
      (fun _ => .bind stepwise_precondition fun _ => .pure _) fun _ => .pure _
  refine .bind .remaining fun bound => .bind (stepwise_collect ?_ bound) fun body => .pure _
  exact .bind (stepwise_eat .rbrace) fun closed => alike_ite (fun _ => .pure _)
    fun _ => .bind stepwise_statement fun _ => .pure _

/-! Objects. -/

theorem stepwise_dataVariable : Stepwise dataVariable :=
  .bind (stepwise_name _) fun _ => .bind (stepwise_expect .colon) fun _ =>
    .bind .type fun _ => .bind (stepwise_expect .eq) fun _ =>
      .bind stepwise_expression fun _ => .bind (stepwise_expect .semicolon) fun _ => .pure _

theorem stepwise_block {item : Reader α} (single : Stepwise item) : Stepwise (block item) := by
  refine .bind (stepwise_expect .lbrace) fun _ => .bind .remaining fun bound =>
    stepwise_collect ?_ bound
  exact .bind (stepwise_eat .rbrace) fun closed => alike_ite (fun _ => .pure _)
    fun _ => .bind single fun _ => .pure _

theorem stepwise_state : Stepwise state :=
  .bind (stepwise_name _) fun _ => .bind (stepwise_expect .semicolon) fun _ => .pure _

theorem stepwise_part : Stepwise part := by
  refine .look fun token position after after' => ?_
  dsimp only
  split
  · exact alike_taking (.pure _)
  · exact alike_taking (.bind (stepwise_block stepwise_dataVariable) fun _ => .pure _)
  · exact alike_taking (.bind (stepwise_block stepwise_state) fun _ => .pure _)
  · exact .stay (.bind stepwise_transition fun _ => .pure _)
  · exact alike_unexpected _ _ _ _ _

theorem stepwise_claims : Stepwise claims := by
  refine .bind .remaining fun bound => stepwise_collect ?_ bound
  refine .bind (stepwise_eat .comma) fun more => alike_ite (fun _ => ?_) fun _ => .pure _
  exact .bind (stepwise_expectWord _) fun _ => .bind (stepwise_expect .minus) fun _ =>
    .bind (stepwise_expectWord _) fun _ => .bind (stepwise_expectWord _) fun _ =>
      .bind (stepwise_dottedName _) fun _ => .pure _

theorem stepwise_interfaces : Stepwise interfaces := by
  refine .bind (stepwise_dottedName _) fun first => .bind .remaining fun bound => ?_
  refine .bind (stepwise_collect ?_ bound) fun others => .pure _
  exact .bind (stepwise_eat .comma) fun more => alike_ite
    (fun _ => .bind (stepwise_dottedName _) fun _ => .pure _) fun _ => .pure _

theorem stepwise_object : Stepwise object := by
  refine .bind (stepwise_expectWord _) fun start => .bind (stepwise_expectWord _) fun _ => ?_
  refine .bind .objectPath fun path => .bind stepwise_claims fun names => ?_
  refine .bind (stepwise_expectWord _) fun _ => .bind stepwise_interfaces fun interfaces => ?_
  exact .bind (stepwise_expect .lbrace) fun _ => .bind .remaining fun bound =>
    .bind (stepwise_collect stepwise_part bound) fun parts => .pure _

end SimBus.Surface.Reader
