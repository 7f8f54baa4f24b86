import Multiparty.Parsing.Movement
import Multiparty.Parsing.Program

/-! Every parser of the grammar settles on every stream, and consumes a token where it succeeds. The table must
give no meaning to the end of the input, where the cursor cannot move on. -/

namespace Multiparty

/-- What recursion through the table relies on: no rule begins at the end of the input, and a statement rule
reads a statement rather than looking the token up again. -/
structure Table.Grounded (table : Table) : Prop where
  operand : table.operand .endOfInput = none
  statement : table.statement .endOfInput = none
  direct : ∀ kind, table.statement kind ≠ some .any

theorem Table.standard_grounded : Table.standard.Grounded where
  operand := rfl
  statement := rfl
  direct := by intro kind; cases kind <;> decide

namespace Parser
open Token

theorem identifier_moves (start : Cursor → Prop) (bound : Nat) : identifier.Moves start 1 bound :=
  (expectFor_moves (by decide) _ start bound).bind (fun _ => pure_moves _ bound _) (by omega)

theorem literal_moves {start : Cursor → Prop} {gap : Nat} (departs : Departs start gap) (bound : Nat) :
    literal.Moves start gap bound := by
  refine (advance_moves departs bound).follow 0 bound (fun token => ?_) (by omega)
  split
  next =>
    split
    next => exact pure_moves _ _ _
    next => exact fail_moves _ _ _ _
  next => exact pure_moves _ _ _
  next => exact pure_moves _ _ _
  next => exact pure_moves _ _ _
  next => exact fail_moves _ _ _ _

/-- Giving the tree its span consumes nothing. -/
theorem spanned_moves {α : Type} (bound : Nat) (place : Position) (build : Span → α) :
    (do return build (← spanFrom place) : Parser α).Moves anywhere 0 bound :=
  (spanFrom_moves _ bound place).bind (fun _ => pure_moves _ bound _) (by omega)

theorem readInt_moves {start : Cursor → Prop} {gap : Nat} (departs : Departs start gap) (bound : Nat) :
    readInt.Moves start gap bound :=
  ((advance_moves departs bound).bind
    (fun word => (expect_moves (by decide) _ bound).bind
      (fun _ => (expectFor_moves (by decide) _ _ bound).bind
        (fun _ => spanned_moves bound _ _) (by omega)) (by omega)) (by omega)).weaken (by omega)

section
variable {expression : Power → Parser Expr} {start : Cursor → Prop} {gap bound : Nat}

theorem negation_moves (departs : Departs start gap)
    (inner : ∀ power, (expression power).Moves anywhere 1 bound) :
    (negation expression).Moves start gap (bound + gap) :=
  ((advance_moves departs _).bind (fun _ => (inner .unary).bind (fun _ => pure_moves _ bound _) (by omega))
    (by omega)).weaken (by omega)

theorem grouping_moves (departs : Departs start gap)
    (inner : ∀ power, (expression power).Moves anywhere 1 bound) :
    (grouping expression).Moves start gap (bound + gap) :=
  ((advance_moves departs _).bind
    (fun _ => (inner .default).bind
      (fun value => (expect_moves (by decide) _ bound).bind
        (fun _ => pure_moves _ bound value) (by omega)) (by omega)) (by omega)).weaken (by omega)

theorem names_moves (bound : Nat) : names.Moves anywhere 1 bound := by
  have round : (do
      let _ ← advance
      identifier : Parser Identifier).Moves (fun cursor => cursor.kind = .comma) (1 + 1) bound :=
    ((advance_moves .inside bound).bind (fun _ => identifier_moves _ bound) (by omega)).restrict
      fun cursor comma ended => by simp [comma] at ended
  exact (identifier_moves _ bound).bind
    (fun first => (many_moves ((round.weaken (by omega)).restrict
      fun cursor more => by simpa using more) anywhere).bind
        (fun rest => pure_moves _ bound _) (by omega)) (by omega)

theorem reveal_moves (departs : Departs start gap)
    (inner : ∀ power, (expression power).Moves anywhere 1 bound) :
    (reveal expression).Moves start gap (bound + gap) :=
  ((advance_moves departs _).bind
    (fun word => (expect_moves (by decide) _ bound).bind
      (fun _ => (inner .default).bind
        (fun body => (expectFor_moves (by decide) _ _ bound).bind
          (fun _ => (names_moves bound).bind
            (fun opened => (expect_moves (by decide) _ bound).bind
              (fun _ => spanned_moves bound _ _) (by omega)) (by omega)) (by omega)) (by omega))
      (by omega)) (by omega)).weaken (by omega)

theorem arguments_moves (inner : ∀ power, (expression power).Moves anywhere 1 bound) :
    (arguments expression).Moves anywhere 2 (bound + 1) :=
  commaSeparated_moves _ (inner .default)

theorem remoteOperation_moves (inner : ∀ power, (expression power).Moves anywhere 1 bound)
    (target tunnel : Identifier) :
    (remoteOperation expression target tunnel).Moves anywhere 1 (bound + 1) := by
  refine (((identifier_moves _ _).follow 2 (bound + 1)
    (fun operation => (arguments_moves inner).follow 0 bound
      (fun values => (spanFrom_moves _ bound _).follow 0 bound
        (fun callSpan => (spanFrom_moves _ bound _).follow 0 bound
          (fun span => ?_) (by omega)) (by omega)) (by omega)) (by omega))).weaken (by omega)
  split
  next => exact pure_moves _ _ _
  next => exact pure_moves _ _ _
  next => exact pure_moves _ _ _
  next => exact fail_moves _ _ _ _

theorem memberCall_moves (inner : ∀ power, (expression power).Moves anywhere 1 bound)
    (first second : Identifier) :
    (memberCall expression first second).Moves anywhere 1 (bound + 1) := by
  refine ((arguments_moves inner).follow 0 bound
    (fun values => (spanFrom_moves _ bound _).follow 0 bound
      (fun callSpan => (spanFrom_moves _ bound _).follow 0 bound
        (fun span => ?_) (by omega)) (by omega)) (by omega)).weaken (by omega)
  split
  next =>
    split
    next => exact pure_moves _ _ _
    next => exact pure_moves _ _ _
    next => exact pure_moves _ _ _
    next => exact fail_moves _ _ _ _
  next => exact pure_moves _ _ _

theorem named_moves (inner : ∀ power, (expression power).Moves anywhere 1 bound) :
    (named expression).Moves anywhere 1 (bound + 1) := by
  refine ((identifier_moves _ _).follow 0 (bound + 1)
    (fun first => kind_bind_moves fun seen => ?_) (by omega)).weaken (by omega)
  split
  next =>
    exact (((arguments_moves inner).follow 0 bound
      (fun values => (spanFrom_moves _ bound _).bind
        (fun span => pure_moves _ bound _) (by omega)) (by omega)).weaken (by omega)).restrict
          fun _ _ => trivial
  next =>
    refine (((advance_moves .inside (bound + 1)).follow (1 + 0) (bound + 1)
      (fun _ => (identifier_moves _ (bound + 1)).follow 0 (bound + 1)
        (fun second => kind_bind_moves fun seen => ?_) (by omega)) (by omega)).weaken
          (by omega)).restrict fun cursor dot ended => by simp [dot.2] at ended
    split
    next =>
      exact (((advance_moves .inside _).bind
        (fun _ => remoteOperation_moves inner first second) (by omega)).weaken
          (by omega)).restrict fun cursor dot ended => by simp [dot.2] at ended
    next =>
      exact ((memberCall_moves inner first second).weaken (by omega)).restrict fun _ _ => trivial
  next => exact pure_moves _ _ _

theorem operandBy_moves (departs : Departs start gap)
    (inner : ∀ power, (expression power).Moves anywhere 1 bound) (rule : OperandRule) :
    (operandBy expression rule).Moves start gap (bound + gap) := by
  have few := departs.le_one
  cases rule with
  | literal => exact literal_moves departs _
  | identifier =>
    exact (((named_moves inner).weaken few).nearer (by omega)).restrict fun _ _ => trivial
  | negation => exact negation_moves departs inner
  | grouping => exact grouping_moves departs inner
  | readInt => exact readInt_moves departs _
  | reveal => exact reveal_moves departs inner

variable {table : Table}

theorem operand_moves (grounded : table.Grounded)
    (inner : ∀ power, (expression power).Moves anywhere 1 bound) :
    (operand expression table).Moves anywhere 1 (bound + 1) := by
  refine kind_bind_moves fun seen => ?_
  split
  next rule found =>
    refine (operandBy_moves .inside inner rule).restrict fun cursor here ended => ?_
    rw [← here.2, ended, grounded.operand] at found
    cases found
  next => exact unexpected_moves _ _ _

theorem binary_moves (inner : ∀ power, (expression power).Moves anywhere 1 bound) (left : Expr)
    (power : Power) : (binary expression left power).Moves anywhere 2 (bound + 1) := by
  refine kind_bind_moves fun seen => ?_
  split
  next operator found =>
    refine (((advance_moves .inside _).bind (fun _ => (inner power).bind
      (fun right => pure_moves _ bound _) (by omega)) (by omega))).restrict
        fun cursor here ended => ?_
    rw [← here.2, ended] at found
    cases found
  next => exact unexpected_moves _ _ _

theorem climbWithin_moves (inner : ∀ power, (expression power).Moves anywhere 1 bound)
    (power : Power) (fuel : Nat) (left : Expr) :
    (climbWithin expression table power fuel left).Moves anywhere 0 (min (bound + 1) fuel) := by
  induction fuel generalizing left with
  | zero =>
    intro cursor _ _ near
    omega
  | succ fuel ih =>
    refine kind_bind_moves fun seen => ?_
    dsimp only
    split
    next => exact pure_moves _ _ _
    next =>
      exact ((((binary_moves inner left _).nearer (by omega)).bind
        (fun taken => ih taken) (by omega)).weaken (by omega)).restrict fun _ _ => trivial

theorem climb_moves (inner : ∀ power, (expression power).Moves anywhere 1 bound) (power : Power)
    (left : Expr) : (climb expression table power left).Moves anywhere 0 (bound + 1) :=
  fun cursor closed _ near =>
    climbWithin_moves inner power cursor.fuel left cursor closed trivial
      (by simp only [Cursor.remaining, Cursor.fuel] at near ⊢; omega)

end

section
variable {table : Table} {start : Cursor → Prop} {gap : Nat}

theorem expressionWithin_moves (grounded : table.Grounded) (fuel : Nat) (power : Power) :
    (expressionWithin table fuel power).Moves anywhere 1 fuel := by
  induction fuel generalizing power with
  | zero =>
    intro cursor _ _ near
    omega
  | succ fuel ih =>
    exact (operand_moves grounded ih).bind (fun left => climb_moves ih power left) (by omega)

theorem expression_moves (grounded : table.Grounded) (power : Power) (bound : Nat) :
    (expression table power).Moves anywhere 1 bound :=
  fun cursor closed _ _ =>
    expressionWithin_moves grounded cursor.fuel power cursor closed trivial
      (by simp only [Cursor.remaining, Cursor.fuel]; omega)

theorem type_moves (start : Cursor → Prop) (bound : Nat) : type.Moves start 1 bound := by
  refine kind_bind_moves fun seen => ?_
  split
  next found =>
    refine (((advance_moves .inside _).bind (fun _ => pure_moves _ bound _) (by omega))).restrict
      fun cursor here ended => ?_
    rw [← here.2, ended] at found
    cases found
  next => exact unexpectedFor_moves _ _ _ _

theorem binder_moves (start : Cursor → Prop) (bound : Nat) : binder.Moves start 1 bound :=
  ((position_moves _ bound).bind
    (fun _ => (type_moves _ bound).bind
      (fun _ => (identifier_moves _ bound).bind
        (fun _ => spanned_moves bound _ _) (by omega)) (by omega)) (by omega)).weaken (by omega)

theorem condition_moves (grounded : table.Grounded) (bound : Nat) :
    (condition table).Moves anywhere 1 bound :=
  ((expect_moves (by decide) _ bound).bind
    (fun _ => (expression_moves grounded _ bound).bind
      (fun inner => (expect_moves (by decide) _ bound).bind
        (fun _ => pure_moves _ bound inner) (by omega)) (by omega)) (by omega)).weaken (by omega)

theorem expressionStatement_moves (grounded : table.Grounded) (start : Cursor → Prop)
    (bound : Nat) : (expressionStatement table).Moves start 1 bound :=
  ((position_moves _ bound).bind
    (fun _ => (expression_moves grounded _ bound).bind
      (fun _ => (expect_moves (by decide) _ bound).bind
        (fun _ => spanned_moves bound _ _) (by omega)) (by omega)) (by omega)).weaken (by omega)

theorem initial?_moves (grounded : table.Grounded) (name : Identifier) (bound : Nat) :
    (initial? table name).Moves anywhere 0 bound := by
  refine kind_bind_moves fun seen => ?_
  split
  next =>
    exact (((advance_moves .inside bound).bind
      (fun _ => (expression_moves grounded _ bound).bind
        (fun _ => pure_moves _ bound _) (by omega)) (by omega)).weaken (by omega)).restrict
          fun cursor here ended => by simp [here.2] at ended
  next => exact pure_moves _ _ _

theorem declaration_moves (grounded : table.Grounded) (start : Cursor → Prop) (bound : Nat) :
    (declaration table).Moves start 1 bound :=
  ((position_moves _ bound).bind
    (fun _ => (binder_moves _ bound).bind
      (fun binder => (initial?_moves grounded _ bound).bind
        (fun _ => (expectFor_moves (by decide) _ _ bound).bind
          (fun _ => spanned_moves bound _ _) (by omega)) (by omega)) (by omega))
    (by omega)).weaken (by omega)

theorem assignment_moves (grounded : table.Grounded) (start : Cursor → Prop) (bound : Nat) :
    (assignment table).Moves start 1 bound :=
  ((position_moves _ bound).bind
    (fun _ => (identifier_moves _ bound).bind
      (fun _ => (expect_moves (by decide) _ bound).bind
        (fun _ => (expression_moves grounded _ bound).bind
          (fun _ => (expectFor_moves (by decide) _ _ bound).bind
            (fun _ => (spanFrom_moves _ bound _).bind
              (fun _ => pure_moves _ bound _) (by omega)) (by omega)) (by omega)) (by omega))
      (by omega)) (by omega)).weaken (by omega)

theorem namedStatement_moves (grounded : table.Grounded) (start : Cursor → Prop) (bound : Nat) :
    (namedStatement table).Moves start 1 bound := by
  refine kindAhead_bind_moves fun seen => ?_
  split
  next => exact assignment_moves grounded _ _
  next => exact expressionStatement_moves grounded _ _

theorem display_moves (departs : Departs start gap) (grounded : table.Grounded) (bound : Nat) :
    (display table).Moves start gap bound :=
  ((advance_moves departs bound).bind
    (fun _ => (condition_moves grounded bound).bind
      (fun _ => (expect_moves (by decide) _ bound).bind
        (fun _ => spanned_moves bound _ _) (by omega)) (by omega)) (by omega)).weaken (by omega)

theorem returns_moves (departs : Departs start gap) (grounded : table.Grounded) (bound : Nat) :
    (returns table).Moves start gap bound := by
  refine ((advance_moves departs bound).follow 0 bound
    (fun word => kind_bind_moves fun seen => ?_) (by omega))
  split
  next =>
    exact ((expect_moves (by decide) _ bound).bind
      (fun _ => spanned_moves bound _ _) (by omega)).weaken (by omega)
  next =>
    exact (((expression_moves grounded _ bound).bind
      (fun _ => (expect_moves (by decide) _ bound).bind
        (fun _ => spanned_moves bound _ _) (by omega)) (by omega)).weaken (by omega)).restrict
          fun _ _ => trivial

variable {statement : Parser Stmt} {bound : Nat}

theorem conditional_moves (departs : Departs start gap) (grounded : table.Grounded)
    (inner : statement.Moves anywhere 1 bound) :
    (conditional table statement).Moves start gap (bound + gap) := by
  refine ((advance_moves departs _).follow 0 bound
    (fun word => ((condition_moves grounded bound).follow 0 bound
      (fun guard => (inner.follow 0 bound
        (fun body => kind_bind_moves fun seen => ?_) (by omega)).weaken (by omega))
      (by omega)).weaken (by omega)) (by omega)).weaken (by omega)
  split
  next =>
    exact (((advance_moves .inside bound).bind
      (fun _ => inner.bind (fun _ => spanned_moves bound _ _) (by omega)) (by omega)).weaken
        (by omega)).restrict fun cursor here ended => by simp [here.2] at ended
  next => exact (spanned_moves bound _ _).restrict fun _ _ => trivial

theorem whileLoop_moves (departs : Departs start gap) (grounded : table.Grounded)
    (inner : statement.Moves anywhere 1 bound) :
    (whileLoop table statement).Moves start gap (bound + gap) :=
  ((advance_moves departs _).bind
    (fun _ => (condition_moves grounded bound).bind
      (fun _ => inner.bind (fun _ => spanned_moves bound _ _) (by omega)) (by omega))
    (by omega)).weaken (by omega)

theorem forEach_moves (departs : Departs start gap) (inner : statement.Moves anywhere 1 bound) :
    (forEach statement).Moves start gap (bound + gap) :=
  ((advance_moves departs _).bind
    (fun _ => (expect_moves (by decide) _ bound).bind
      (fun _ => (binder_moves _ bound).bind
        (fun _ => (expectFor_moves (by decide) _ _ bound).bind
          (fun _ => (identifier_moves _ bound).bind
            (fun _ => (expect_moves (by decide) _ bound).bind
              (fun _ => inner.bind (fun _ => spanned_moves bound _ _) (by omega))
              (by omega)) (by omega)) (by omega)) (by omega)) (by omega)) (by omega)).weaken
    (by omega)

theorem blockItem_moves (inner : statement.Moves anywhere 1 bound) :
    (blockItem statement).Moves anywhere 1 bound := by
  refine kind_bind_moves fun seen => ?_
  split
  next => exact unexpectedFor_moves _ _ _ _
  next => exact inner.restrict fun _ _ => trivial

theorem statements_moves (inner : statement.Moves anywhere 1 bound) :
    (statements statement).Moves anywhere 1 (bound + 1) :=
  ((expect_moves (by decide) _ _).bind
    (fun _ => (many_moves ((blockItem_moves inner).restrict fun _ _ => trivial) anywhere).bind
      (fun items => (expect_moves (by decide) _ bound).bind
        (fun _ => pure_moves _ bound items) (by omega)) (by omega)) (by omega)).weaken (by omega)

theorem block_moves (inner : statement.Moves anywhere 1 bound) (start : Cursor → Prop) :
    (block statement).Moves start 1 (bound + 1) :=
  ((position_moves _ _).bind
    (fun _ => (statements_moves inner).bind
      (fun _ => spanned_moves bound _ _) (by omega)) (by omega)).weaken (by omega)

theorem statementBy_moves (departs : Departs start gap) (grounded : table.Grounded)
    (inner : statement.Moves anywhere 1 bound) {rule : StatementRule} (direct : rule ≠ .any) :
    (statementBy table statement rule).Moves start gap (bound + gap) := by
  have few := departs.le_one
  cases rule with
  | any => exact absurd rfl direct
  | declaration => exact (declaration_moves grounded _ _).weaken few
  | identifier => exact (namedStatement_moves grounded _ _).weaken few
  | display => exact display_moves departs grounded _
  | conditional => exact conditional_moves departs grounded inner
  | whileLoop => exact whileLoop_moves departs grounded inner
  | forEach => exact forEach_moves departs inner
  | returns => exact returns_moves departs grounded _
  | block => exact ((block_moves inner _).weaken few).nearer (by omega)

theorem statementWithin_moves (grounded : table.Grounded) (fuel : Nat) :
    (statementWithin table fuel).Moves anywhere 1 fuel := by
  induction fuel with
  | zero =>
    intro cursor _ _ near
    omega
  | succ fuel ih =>
    refine kind_bind_moves fun seen => ?_
    split
    next rule found =>
      refine (statementBy_moves .inside grounded ih fun any => ?_).restrict fun cursor here ended => ?_
      · exact grounded.direct seen (any ▸ found)
      · rw [← here.2, ended, grounded.statement] at found
        cases found
    next => exact expressionStatement_moves grounded _ _

theorem statement_moves (grounded : table.Grounded) (start : Cursor → Prop) (bound : Nat) :
    (Parser.statement table).Moves start 1 bound :=
  fun cursor closed _ _ =>
    statementWithin_moves grounded cursor.fuel cursor closed trivial
      (by simp only [Cursor.remaining, Cursor.fuel]; omega)

theorem function_moves (grounded : table.Grounded) (start : Cursor → Prop) (bound : Nat) :
    (function table).Moves start 1 bound :=
  ((expect_moves (by decide) _ bound).bind
    (fun _ => (type_moves _ bound).bind
      (fun _ => (identifier_moves _ (bound + 1)).bind
        (fun _ => (commaSeparated_moves _ (binder_moves _ (bound + 1))).bind
          (fun _ => (statements_moves (statement_moves grounded _ bound)).bind
            (fun _ => spanned_moves bound _ _) (by omega)) (by omega)) (by omega)) (by omega))
    (by omega)).weaken (by omega)

theorem tunnel_moves (departs : Departs start gap) (bound : Nat) : tunnel.Moves start gap bound :=
  ((advance_moves departs bound).bind
    (fun _ => (expect_moves (by decide) _ bound).bind
      (fun _ => (binder_moves _ bound).bind
        (fun _ => (expect_moves (by decide) _ bound).bind
          (fun _ => spanned_moves bound _ _) (by omega)) (by omega)) (by omega))
    (by omega)).weaken (by omega)

theorem group_moves (departs : Departs start gap) (bound : Nat) : group.Moves start gap bound :=
  ((advance_moves departs bound).bind
    (fun _ => (expect_moves (by decide) _ bound).bind
      (fun _ => (identifier_moves _ bound).bind
        (fun _ => (identifier_moves _ bound).bind
          (fun _ => (expect_moves (by decide) _ bound).bind
            (fun _ => spanned_moves bound _ _) (by omega)) (by omega)) (by omega)) (by omega))
    (by omega)).weaken (by omega)

theorem clientMember_moves (grounded : table.Grounded) (bound : Nat) :
    (clientMember table).Moves anywhere 1 bound := by
  refine kind_bind_moves fun seen => ?_
  split
  next =>
    exact (((tunnel_moves .inside bound).bind (fun _ => pure_moves _ bound _) (by omega))).restrict
      fun cursor here ended => by simp [here.2] at ended
  next => exact (function_moves grounded _ bound).bind (fun _ => pure_moves _ bound _) (by omega)
  next => exact unexpectedFor_moves _ _ _ _

theorem serverMember_moves (grounded : table.Grounded) (bound : Nat) :
    (serverMember table).Moves anywhere 1 bound := by
  refine kind_bind_moves fun seen => ?_
  split
  next =>
    exact (((group_moves .inside bound).bind (fun _ => pure_moves _ bound _) (by omega))).restrict
      fun cursor here ended => by simp [here.2] at ended
  next => exact (function_moves grounded _ bound).bind (fun _ => pure_moves _ bound _) (by omega)
  next => exact unexpectedFor_moves _ _ _ _

theorem members_moves {α β : Type} {member : Parser (α ⊕ β)} {bound : Nat}
    (each : member.Moves anywhere 1 bound) : (members member).Moves anywhere 1 bound :=
  ((expect_moves (by decide) _ _).bind
    (fun _ => (many_moves (each.restrict fun _ _ => trivial) anywhere).bind
      (fun items => (expect_moves (by decide) _ bound).bind
        (fun _ => pure_moves _ bound _) (by omega)) (by omega)) (by omega)).weaken (by omega)

theorem client_moves (grounded : table.Grounded) (start : Cursor → Prop) (bound : Nat) :
    (client table).Moves start 1 bound :=
  ((expect_moves (by decide) _ bound).bind
    (fun _ => (expect_moves (by decide) _ bound).bind
      (fun _ => (identifier_moves _ bound).bind
        (fun _ => (members_moves (clientMember_moves grounded bound)).bind
          (fun _ => spanned_moves bound _ _) (by omega)) (by omega)) (by omega))
    (by omega)).weaken (by omega)

theorem server_moves (grounded : table.Grounded) (start : Cursor → Prop) (bound : Nat) :
    (server table).Moves start 1 bound :=
  ((expect_moves (by decide) _ bound).bind
    (fun _ => (expect_moves (by decide) _ bound).bind
      (fun _ => (identifier_moves _ bound).bind
        (fun _ => (members_moves (serverMember_moves grounded bound)).bind
          (fun _ => spanned_moves bound _ _) (by omega)) (by omega)) (by omega))
    (by omega)).weaken (by omega)

theorem require_moves (holds : Cursor → Bool) (reason : String) (start : Cursor → Prop)
    (bound : Nat) : (require holds reason).Moves start 0 bound := by
  intro cursor _ _ _
  unfold require
  split
  next => exact .done .start (Nat.le_refl _)
  next => exact .failed .start

theorem program_moves (grounded : table.Grounded) (bound : Nat) :
    (program table).Moves anywhere 1 bound :=
  ((position_moves _ bound).bind
    (fun _ => (many_moves (client_moves grounded _ bound) _).bind
      (fun _ => (require_moves _ _ _ bound).bind
        (fun _ => (server_moves grounded _ bound).bind
          (fun _ => (require_moves _ _ _ bound).bind
            (fun _ => spanned_moves bound _ _) (by omega)) (by omega)) (by omega)) (by omega))
    (by omega)).weaken (by omega)

/-- Reading a program settles on every stream. -/
theorem program_settles (file : String) (tokens : List Token) :
    program .standard (.ofTokens file tokens) ≠ .exhausted := by
  have moved := program_moves Table.standard_grounded
    ((Cursor.ofTokens file tokens).remaining + 1) (.ofTokens file tokens)
    (Cursor.ofTokens_closed file tokens) trivial (by omega)
  intro exhausted
  rw [exhausted] at moved
  cases moved

end
end Parser
end Multiparty
