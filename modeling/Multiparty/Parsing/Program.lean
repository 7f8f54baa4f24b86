import Multiparty.Parsing.Statement

/-! Functions, clients, the server, and whole programs. -/

namespace Multiparty.Parser
open Token

section
variable (table : Table)

def function : Parser Function := do
  let word ← expect .functionWord
  let returnType ← type
  let name ← identifier
  let parameters ← commaSeparated binder "expected `,` between parameters"
  let body ← statements (statement table)
  return ⟨returnType, name, parameters, body, ← spanFrom word.span.start⟩

def tunnel : Parser Tunnel := do
  let word ← advance
  let _ ← expect .ofWord
  let binder ← binder
  let _ ← expect .semicolon
  return ⟨binder, ← spanFrom word.span.start⟩

def group : Parser Group := do
  let word ← advance
  let _ ← expect .ofWord
  let client ← identifier
  let name ← identifier
  let _ ← expect .semicolon
  return ⟨client, name, ← spanFrom word.span.start⟩

def clientMember : Parser (Tunnel ⊕ Function) := do
  match ← kind with
  | .tunnelWord => return .inl (← tunnel)
  | .functionWord => return .inr (← function table)
  | _ => unexpectedFor "a client declares only tunnels and functions"

def serverMember : Parser (Group ⊕ Function) := do
  match ← kind with
  | .groupWord => return .inl (← group)
  | .functionWord => return .inr (← function table)
  | _ => unexpectedFor "a server declares only groups and functions"

/-- The members between braces, in any order. Those of each sort keep theirs. -/
def members {α β : Type} (member : Parser (α ⊕ β)) : Parser (List α × List β) := do
  let _ ← expect .openCurly
  let items ← many (fun cursor => cursor.kind ≠ .closeCurly) member
  let _ ← expect .closeCurly
  return (items.filterMap Sum.getLeft?, items.filterMap Sum.getRight?)

def client : Parser Client := do
  let word ← expect .declareWord
  let _ ← expect .clientWord
  let name ← identifier
  let (tunnels, functions) ← members (clientMember table)
  return ⟨name, tunnels, functions, ← spanFrom word.span.start⟩

def server : Parser Server := do
  let word ← expect .declareWord
  let _ ← expect .serverWord
  let name ← identifier
  let (groups, functions) ← members (serverMember table)
  return ⟨name, groups, functions, ← spanFrom word.span.start⟩

/-- Whether the cursor stands at `declare` with `part` after it. -/
def declares (part : Kind) (cursor : Cursor) : Bool :=
  cursor.kind == .declareWord && cursor.kindAhead 1 == part

/-- Succeeds, without consuming anything, where `holds` is true of the cursor. -/
def require (holds : Cursor → Bool) (reason : String) : Parser Unit :=
  fun cursor => if holds cursor then .done () cursor else .failed (cursor.unexpectedFor reason) cursor

/-- Any number of clients, then one server and nothing more. -/
def program : Parser Program := do
  let start ← position
  let clients ← many (declares .clientWord) (client table)
  require (declares .serverWord) "expected a client or the server declaration"
  let server ← server table
  require Cursor.atEnd "nothing may follow the server declaration"
  return ⟨clients, server, ← spanFrom start⟩

end
end Multiparty.Parser
