import Multiparty.FrontEnd
import Multiparty.Proofs.StreamPlaces

/-! What may be done with a parser, one thing after the other and whether it succeeds or fails. Its cursor stays in
the stream and never goes back, and what reads a form of the grammar consumes a token. -/

namespace Multiparty

namespace Parser
open Token

/-- Looking at tokens, consuming them, and reading any form of the grammar. -/
inductive Operation
  | kind
  | kindAhead (distance : Nat)
  | position
  | spanFrom (place : Position)
  | unexpected
  | unexpectedFor (reason : String)
  | advance
  | expect (wanted : Kind)
  | expectFor (wanted : Kind) (reason : String)
  | identifier
  | arguments
  | operandBy (rule : OperandRule)
  | binary (left : Expr) (power : Power)
  | expression (power : Power)
  | type
  | binder
  | condition
  | expressionStatement
  | statementBy (rule : StatementRule)
  | statements
  | statement
  | function
  | tunnel
  | group
  | client
  | server

def forget {α : Type} (parser : Parser α) : Parser Unit := do
  let _ ← parser
  return ()

namespace Operation

/-- The operation with the table of the language, without its result. -/
def run : Operation → Parser Unit
  | .kind => forget Parser.kind
  | .kindAhead distance => forget (Parser.kindAhead distance)
  | .position => forget Parser.position
  | .spanFrom place => forget (Parser.spanFrom place)
  | .unexpected => Parser.unexpected
  | .unexpectedFor reason => Parser.unexpectedFor reason
  | .advance => forget Parser.advance
  | .expect wanted => forget (Parser.expect wanted)
  | .expectFor wanted reason => forget (Parser.expectFor wanted reason)
  | .identifier => forget Parser.identifier
  | .arguments => forget (Parser.arguments (Parser.expression .standard))
  | .operandBy rule => forget (Parser.operandBy (Parser.expression .standard) rule)
  | .binary left power => forget (Parser.binary (Parser.expression .standard) left power)
  | .expression power => forget (Parser.expression .standard power)
  | .type => forget Parser.type
  | .binder => forget Parser.binder
  | .condition => forget (Parser.condition .standard)
  | .expressionStatement => forget (Parser.expressionStatement .standard)
  | .statementBy rule => forget (Parser.statementBy .standard (Parser.statement .standard) rule)
  | .statements => forget (Parser.statements (Parser.statement .standard))
  | .statement => forget (Parser.statement .standard)
  | .function => forget (Parser.function .standard)
  | .tunnel => forget Parser.tunnel
  | .group => forget Parser.group
  | .client => forget (Parser.client .standard)
  | .server => forget (Parser.server .standard)

/-- Whether the operation reads an expression, a statement, a name with its type, a function or a part. -/
def reads : Operation → Bool
  | .expression _ | .statement | .binder | .function | .client | .server => true
  | _ => false

end Operation

section
variable {α : Type} {parser : Parser α} {gap fewer bound : Nat}

theorem forget_moves (moves : parser.Moves anywhere gap bound) (less : fewer ≤ gap) :
    (forget parser).Moves anywhere fewer bound :=
  (moves.bind (fun _ => pure_moves _ bound ()) (by omega)).weaken less

theorem expect_moves_anywhere (wanted : Kind) (bound : Nat) : (expect wanted).Moves anywhere 0 bound := by
  intro cursor _ _ _
  unfold expect
  split
  next => exact .done (.step .start) (Cursor.remaining_advance_le cursor)
  next => exact .failed .start

theorem expectFor_moves_anywhere (wanted : Kind) (reason : String) (bound : Nat) :
    (expectFor wanted reason).Moves anywhere 0 bound := by
  intro cursor _ _ _
  unfold expectFor
  split
  next => exact .done (.step .start) (Cursor.remaining_advance_le cursor)
  next => exact .failed .start

end

/-- Every operation settles, and one that reads and succeeds has consumed a token. -/
theorem Operation.moves (operation : Operation) (bound : Nat) :
    operation.run.Moves anywhere operation.reads.toNat bound := by
  have grounded := Table.standard_grounded
  have expressions (power : Power) : (Parser.expression .standard power).Moves anywhere 1 bound :=
    expression_moves grounded power bound
  have statements : (Parser.statement .standard).Moves anywhere 1 bound := statement_moves grounded _ bound
  have less : 0 ≤ 1 := Nat.zero_le 1
  cases operation with
  | kind => exact forget_moves (fun _ _ _ _ => .done .start (Nat.le_refl _)) (Nat.le_refl 0)
  | kindAhead distance => exact forget_moves (fun _ _ _ _ => .done .start (Nat.le_refl _)) (Nat.le_refl 0)
  | position => exact forget_moves (position_moves _ bound) (Nat.le_refl 0)
  | spanFrom place => exact forget_moves (spanFrom_moves _ bound place) (Nat.le_refl 0)
  | unexpected => exact unexpected_moves _ _ bound
  | unexpectedFor reason => exact unexpectedFor_moves _ _ bound reason
  | advance => exact forget_moves (advance_moves .anywhere bound) (Nat.le_refl 0)
  | expect wanted => exact forget_moves (expect_moves_anywhere wanted bound) (Nat.le_refl 0)
  | expectFor wanted reason => exact forget_moves (expectFor_moves_anywhere wanted reason bound) (Nat.le_refl 0)
  | identifier => exact forget_moves (identifier_moves _ bound) less
  | arguments => exact forget_moves ((arguments_moves expressions).nearer (Nat.le_succ bound)) (Nat.zero_le 2)
  | operandBy rule => exact forget_moves (operandBy_moves .anywhere expressions rule) (Nat.le_refl 0)
  | binary left power =>
    exact forget_moves ((binary_moves expressions left power).nearer (Nat.le_succ bound)) (Nat.zero_le 2)
  | expression power => exact forget_moves (expressions power) (Nat.le_refl 1)
  | type => exact forget_moves (type_moves _ bound) less
  | binder => exact forget_moves (binder_moves _ bound) (Nat.le_refl 1)
  | condition => exact forget_moves (condition_moves grounded bound) less
  | expressionStatement => exact forget_moves (expressionStatement_moves grounded _ bound) less
  | statementBy rule =>
    by_cases direct : rule = .any
    · subst direct
      exact forget_moves statements less
    · exact forget_moves (statementBy_moves .anywhere grounded statements direct) (Nat.le_refl 0)
  | statements => exact forget_moves ((statements_moves statements).nearer (Nat.le_succ bound)) less
  | statement => exact forget_moves statements (Nat.le_refl 1)
  | function => exact forget_moves (function_moves grounded _ bound) (Nat.le_refl 1)
  | tunnel => exact forget_moves (tunnel_moves .anywhere bound) (Nat.le_refl 0)
  | group => exact forget_moves (group_moves .anywhere bound) (Nat.le_refl 0)
  | client => exact forget_moves (client_moves grounded _ bound) (Nat.le_refl 1)
  | server => exact forget_moves (server_moves grounded _ bound) (Nat.le_refl 1)

/-- A run of operations leads from the first cursor to the other. After a failure it goes on where the parser
stopped. -/
inductive Ran (first : Cursor) : Cursor → Prop
  | start : Ran first first
  | done {cursor later : Cursor} (operation : Operation) : Ran first cursor →
    operation.run cursor = .done () later → Ran first later
  | failed {cursor stopped : Cursor} {diagnostic : Diagnostic} (operation : Operation) : Ran first cursor →
    operation.run cursor = .failed diagnostic stopped → Ran first stopped

section
variable {file : String} {stream : List Token} {index : Nat} {cursor later : Cursor}

/-- One operation leaves the cursor in the stream, at the same place or further on. -/
theorem Operation.stands (operation : Operation) (stands : cursor.Stands file stream index) :
    ∃ later next, index ≤ next ∧ later.Stands file stream next ∧
      (operation.run cursor = .done () later ∧ (operation.reads → index < next) ∨
        ∃ diagnostic, operation.run cursor = .failed diagnostic later) := by
  have moved := operation.moves (cursor.remaining + 1) cursor stands.closed trivial (Nat.lt_succ_self _)
  cases result : operation.run cursor with
  | done value later =>
    rw [result] at moved
    cases moved with
    | done reached consumed =>
      obtain ⟨next, further, there⟩ := stands.reaches reached
      refine ⟨later, next, further, there, .inl ⟨rfl, fun reads => ?_⟩⟩
      have before := stands.remaining
      have after := there.remaining
      rw [reads, Bool.toNat_true] at consumed
      omega
  | failed diagnostic stopped =>
    rw [result] at moved
    cases moved with
    | failed reached =>
      obtain ⟨next, further, there⟩ := stands.reaches reached
      exact ⟨stopped, next, further, there, .inr ⟨diagnostic, rfl⟩⟩
  | exhausted =>
    rw [result] at moved
    cases moved

theorem Ran.stands (ran : Ran cursor later) (stands : cursor.Stands file stream index) :
    ∃ next, index ≤ next ∧ later.Stands file stream next := by
  induction ran with
  | start => exact ⟨index, Nat.le_refl _, stands⟩
  | done operation _ result ih =>
    obtain ⟨middle, before, there⟩ := ih
    obtain ⟨last, next, after, stands, ⟨same, -⟩ | ⟨_, same⟩⟩ := operation.stands there
    · cases result.symm.trans same
      exact ⟨next, Nat.le_trans before after, stands⟩
    · cases result.symm.trans same
  | failed operation _ result ih =>
    obtain ⟨middle, before, there⟩ := ih
    obtain ⟨last, next, after, stands, ⟨same, -⟩ | ⟨_, same⟩⟩ := operation.stands there
    · cases result.symm.trans same
    · cases result.symm.trans same
      exact ⟨next, Nat.le_trans before after, stands⟩

end

end Parser

/-- The parser ends on every list of tokens: its steps are never exhausted. -/
theorem parseTokens_settles (file : String) (tokens : List Token) : ∃ later,
    (∃ program, Parser.program .standard (.ofTokens file tokens) = .done program later ∧
      parseTokens file tokens = .ok program) ∨
    ∃ diagnostic, Parser.program .standard (.ofTokens file tokens) = .failed diagnostic later ∧
      parseTokens file tokens = .error diagnostic := by
  unfold parseTokens
  split
  next program later settled => exact ⟨later, .inl ⟨program, settled, rfl⟩⟩
  next diagnostic later settled => exact ⟨later, .inr ⟨diagnostic, settled, rfl⟩⟩
  next exhausted => exact absurd exhausted (Parser.program_settles file tokens)

open Multiparty.Parser Cursor

/-- Whatever is done with a parser, its cursor stands at a token of a stream that ends with the end of the input, and
never goes back. Every operation settles, and so does the reading of a whole program. -/
theorem operations_stay_in_stream (file : String) (tokens : List Token) :
    (∃ body last, stream file tokens = body ++ [last] ∧ last.kind = .endOfInput) ∧
    (ofTokens file tokens).Stands file (stream file tokens) 0 ∧
    (∀ cursor later, Ran (ofTokens file tokens) cursor → Ran cursor later → ∃ index next,
      index ≤ next ∧ next < (stream file tokens).length ∧
        cursor.Stands file (stream file tokens) index ∧ later.Stands file (stream file tokens) next) ∧
    (∀ (cursor : Cursor) (index : Nat) (operation : Operation),
      cursor.Stands file (stream file tokens) index → ∃ (later : Cursor) (next : Nat),
      index ≤ next ∧ later.Stands file (stream file tokens) next ∧
        (operation.run cursor = .done () later ∧ (operation.reads → index < next) ∨
          ∃ diagnostic, operation.run cursor = .failed diagnostic later)) ∧
    ∃ later, (∃ program, Parser.program .standard (.ofTokens file tokens) = .done program later ∧
        parseTokens file tokens = .ok program) ∨
      ∃ diagnostic, Parser.program .standard (.ofTokens file tokens) = .failed diagnostic later ∧
        parseTokens file tokens = .error diagnostic := by
  have started := ofTokens_stands file tokens
  refine ⟨stream_ended file tokens, started, ?run, ?step, parseTokens_settles file tokens⟩
  case run =>
    intro cursor later before after
    obtain ⟨index, -, here⟩ := before.stands started
    obtain ⟨next, further, there⟩ := after.stands here
    have inside := there.remaining
    exact ⟨index, next, further, by omega, here, there⟩
  case step =>
    intro cursor index operation stands
    exact operation.stands stands

end Multiparty
