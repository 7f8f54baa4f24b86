import Multiparty.Parsing.Expression

/-! Statements, each read by the rule for its first token. As for expressions, the readers of single forms
take the reader of statements as a parameter. -/

namespace Multiparty

/-- The type that a reserved word names. -/
def Token.Kind.type? : Token.Kind → Option Ty
  | .intWord => some .int
  | .sintWord => some .sint
  | .boolWord => some .bool
  | .sboolWord => some .sbool
  | .stringWord => some .string
  | .voidWord => some .void
  | .clientWord => some .client
  | .sclientWord => some .sclient
  | _ => none

namespace Parser
open Token

def type : Parser Ty := do
  match (← kind).type? with
  | some type => do
    let _ ← advance
    return type
  | none => unexpectedFor "expected a type"

def binder : Parser Binder := do
  let start ← position
  let type ← type
  let name ← identifier
  return ⟨type, name, ← spanFrom start⟩

section
variable (table : Table)

/-- An expression in parentheses. -/
def condition : Parser Expr := do
  let _ ← expect .openParen
  let inner ← expression table .default
  let _ ← expect .closeParen
  return inner

def expressionStatement : Parser Stmt := do
  let start ← position
  let value ← expression table .default
  let _ ← expect .semicolon
  return .expression value (← spanFrom start)

/-- The initial value of a declaration is an assignment to the declared name. -/
def initial? (name : Identifier) : Parser (Option Assignment) := do
  match ← kind with
  | .assignment => do
    let _ ← advance
    let value ← expression table .default
    return some ⟨name, value, name.span.join value.span⟩
  | _ => return none

def declaration : Parser Stmt := do
  let start ← position
  let binder ← binder
  let initial ← initial? table binder.name
  let _ ← expectFor .semicolon "expected `;` after the declaration"
  return .declaration binder initial (← spanFrom start)

def assignment : Parser Stmt := do
  let start ← position
  let target ← identifier
  let _ ← expect .assignment
  let value ← expression table .default
  let _ ← expectFor .semicolon "expected `;` after the assignment"
  let span ← spanFrom start
  return .assign ⟨target, value, span⟩ span

/-- The token after the name tells an assignment from an expression. -/
def namedStatement : Parser Stmt := do
  match ← kindAhead 1 with
  | .assignment => assignment table
  | _ => expressionStatement table

def display : Parser Stmt := do
  let word ← advance
  let value ← condition table
  let _ ← expect .semicolon
  return .display value (← spanFrom word.span.start)

def returns : Parser Stmt := do
  let word ← advance
  match ← kind with
  | .semicolon => do
    let _ ← expect .semicolon
    return .returns none (← spanFrom word.span.start)
  | _ => do
    let value ← expression table .default
    let _ ← expect .semicolon
    return .returns (some value) (← spanFrom word.span.start)

variable (statement : Parser Stmt)

/-- An `else` belongs to the nearest `if` before it. -/
def conditional : Parser Stmt := do
  let word ← advance
  let guard ← condition table
  let body ← statement
  match ← kind with
  | .elseWord => do
    let _ ← advance
    let otherwise ← statement
    return .ifElse guard body otherwise (← spanFrom word.span.start)
  | _ => return .ifThen guard body (← spanFrom word.span.start)

def whileLoop : Parser Stmt := do
  let word ← advance
  let guard ← condition table
  let body ← statement
  return .whileLoop guard body (← spanFrom word.span.start)

def forEach : Parser Stmt := do
  let word ← advance
  let _ ← expect .openParen
  let binder ← binder
  let _ ← expectFor .inWord "expected `in` after the loop variable"
  let group ← identifier
  let _ ← expect .closeParen
  let body ← statement
  return .forEach binder group body (← spanFrom word.span.start)

/-- A statement of a block that has not been closed yet. -/
def blockItem : Parser Stmt := do
  match ← kind with
  | .endOfInput => unexpectedFor "unterminated block, expected `\x7d`"
  | _ => statement

def statements : Parser (List Stmt) := do
  let _ ← expect .openCurly
  let items ← many (fun cursor => cursor.kind ≠ .closeCurly) (blockItem statement)
  let _ ← expect .closeCurly
  return items

def block : Parser Stmt := do
  let start ← position
  let items ← statements statement
  return .block items (← spanFrom start)

def statementBy : StatementRule → Parser Stmt
  | .any => statement
  | .declaration => declaration table
  | .identifier => namedStatement table
  | .display => display table
  | .conditional => conditional table statement
  | .whileLoop => whileLoop table statement
  | .forEach => forEach statement
  | .returns => returns table
  | .block => block statement

end

def statementWithin (table : Table) : Nat → Parser Stmt
  | 0 => exhausted
  | fuel + 1 => do
    match table.statement (← kind) with
    | some rule => statementBy table (statementWithin table fuel) rule
    | none => expressionStatement table

def statement (table : Table) : Parser Stmt :=
  fun cursor => statementWithin table cursor.fuel cursor

end Parser
end Multiparty
