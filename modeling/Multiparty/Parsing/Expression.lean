import Multiparty.Parsing.Parser
import Multiparty.Parsing.Table
import Multiparty.Text.Integer
import Multiparty.Tree.Basic

/-! Expressions. An operand is read by the rule for its first token; after it, operators are taken for as long
as they hold their operands more strongly than what stands to the left. The readers of operands and
operators take the reader of expressions as a parameter, and `expressionWithin` ties the knot. -/

namespace Multiparty

def Token.Kind.operator? : Token.Kind → Option Operator
  | .plus => some .add
  | .dash => some .subtract
  | .star => some .multiply
  | .slash => some .divide
  | .percent => some .modulo
  | .and => some .and
  | .or => some .or
  | .less => some .less
  | .greater => some .greater
  | .equals => some .equal
  | _ => none

namespace Parser
open Token

def identifier : Parser Identifier := do
  let token ← expectFor .identifier "expected an identifier"
  return ⟨token.value, token.span⟩

/-- The token is consumed even if it is no literal. -/
def literal : Parser Expr := do
  let token ← advance
  match token.kind with
  | .number =>
    match Text.integer? token.value with
    | some value => return .int value token.span
    | none => fail ⟨.numberRange token.value, token.span.start⟩
  | .string => return .string token.value token.span
  | .trueWord => return .bool true token.span
  | .falseWord => return .bool false token.span
  | _ => fail ⟨.unexpected token.value, token.span.start⟩

def readInt : Parser Expr := do
  let word ← advance
  let _ ← expect .openParen
  let _ ← expectFor .closeParen "readInt takes no arguments"
  return .readInt (← spanFrom word.span.start)

section
variable (expression : Power → Parser Expr)

def negation : Parser Expr := do
  let word ← advance
  let operand ← expression .unary
  return .not operand ⟨word.span.start, operand.span.stop⟩

/-- Parentheses leave no trace in the tree. -/
def grouping : Parser Expr := do
  let _ ← advance
  let inner ← expression .default
  let _ ← expect .closeParen
  return inner

/-- One name or more, with commas between them. -/
def names : Parser (List Identifier) := do
  let first ← identifier
  let rest ← many (fun cursor => cursor.kind = .comma) do
    let _ ← advance
    identifier
  return first :: rest

def reveal : Parser Expr := do
  let word ← advance
  let _ ← expect .openParen
  let body ← expression .default
  let _ ← expectFor .pipe "expected `|` before the variables to open"
  let opened ← names
  let _ ← expect .closeParen
  return .reveal body opened (← spanFrom word.span.start)

def arguments : Parser (List Expr) :=
  commaSeparated (expression .default) "expected `,` between arguments"

/-- The rest of `target.tunnel.operation(...)`, from the operation on. -/
def remoteOperation (target tunnel : Identifier) : Parser Expr := do
  let operation ← identifier
  let values ← arguments expression
  let callSpan ← spanFrom tunnel.span.start
  let span ← spanFrom target.span.start
  match operation.name, values with
  | "put", [value] => return .remotePut target tunnel value callSpan span
  | "get", [] => return .remoteRead target tunnel .get callSpan span
  | "take", [] => return .remoteRead target tunnel .take callSpan span
  | name, _ =>
    fail ⟨.unexpectedFor name "a remote tunnel supports put(e), get() and take()",
      operation.span.start⟩

/-- The rest of `first.second(...)`, from the arguments on. -/
def memberCall (first second : Identifier) : Parser Expr := do
  let values ← arguments expression
  let callSpan ← spanFrom second.span.start
  let span ← spanFrom first.span.start
  if isTunnelOperation second.name then
    match second.name, values with
    | "put", [value] => return .put first value span span
    | "get", [] => return .read first .get span span
    | "take", [] => return .read first .take span span
    | name, _ =>
      fail ⟨.unexpectedFor name "put takes one argument, get and take none", second.span.start⟩
  else return .invoke first second values callSpan span

/-- Whatever begins with a name: a variable, a call, or an operation on a tunnel or a client. -/
def named : Parser Expr := do
  let first ← identifier
  match ← kind with
  | .openParen => do
    let values ← arguments expression
    let span ← spanFrom first.span.start
    return .call first values span span
  | .dot => do
    let _ ← advance
    let second ← identifier
    match ← kind with
    | .dot => do
      let _ ← advance
      remoteOperation expression first second
    | _ => memberCall expression first second
  | _ => return .symbol first.name first.span

def operandBy : OperandRule → Parser Expr
  | .literal => literal
  | .identifier => named expression
  | .negation => negation expression
  | .grouping => grouping expression
  | .readInt => readInt
  | .reveal => reveal expression

def operand (table : Table) : Parser Expr := do
  match table.operand (← kind) with
  | some rule => operandBy expression rule
  | none => unexpected

/-- The operator at the cursor with its right operand; `left` is the left one. -/
def binary (left : Expr) (power : Power) : Parser Expr := do
  match (← kind).operator? with
  | some operator => do
    let _ ← advance
    let right ← expression power
    return .binary operator left right (left.span.join right.span)
  | none => unexpected

def climbWithin (table : Table) (power : Power) : Nat → Expr → Parser Expr
  | 0, _ => exhausted
  | fuel + 1, left => do
    let next := table.powerOf (← kind)
    if next.rank ≤ power.rank then return left
    else
      let taken ← binary expression left next
      climbWithin table power fuel taken

/-- Takes operators that hold more strongly than `power`, each with all it holds as the new left operand. -/
def climb (table : Table) (power : Power) (left : Expr) : Parser Expr :=
  fun cursor => climbWithin expression table power cursor.fuel left cursor

end

def expressionWithin (table : Table) : Nat → Power → Parser Expr
  | 0, _ => exhausted
  | fuel + 1, power => do
    let left ← operand (expressionWithin table fuel) table
    climb (expressionWithin table fuel) table power left

/-- An expression whose operators all hold more strongly than `power`. -/
def expression (table : Table) (power : Power) : Parser Expr :=
  fun cursor => expressionWithin table cursor.fuel power cursor

end Parser
end Multiparty
