import Multiparty.Source.Position
import Multiparty.Tree.Operator
import Multiparty.Ty

/-! Programs as they are written: clients with their tunnels, one server with its groups, and the functions
of each. Every node knows the text that it was read from. -/

namespace Multiparty

structure Identifier where
  name : String
  span : Span
deriving DecidableEq

/-- A name with its type, as in a declaration, a parameter, a tunnel or a loop. -/
structure Binder where
  type : Ty
  name : Identifier
  span : Span
deriving DecidableEq

/-- The last field of each expression is its span. A call within it has a span of its own. -/
inductive Expr
  | int (value : Int64) (span : Span)
  | bool (value : Bool) (span : Span)
  | string (value : String) (span : Span)
  | symbol (name : String) (span : Span)
  | binary (operator : Operator) (left right : Expr) (span : Span)
  | not (operand : Expr) (span : Span)
  /-- Written `function(arguments)`. -/
  | call (function : Identifier) (arguments : List Expr) (callSpan span : Span)
  /-- Written `target.function(arguments)`: the server calls a function of one client. -/
  | invoke (target function : Identifier) (arguments : List Expr) (callSpan span : Span)
  /-- Written `tunnel.put(value)`. -/
  | put (tunnel : Identifier) (value : Expr) (callSpan span : Span)
  /-- Written `tunnel.get()` or `tunnel.take()`. -/
  | read (tunnel : Identifier) (reading : Reading) (callSpan span : Span)
  /-- Written `target.tunnel.put(value)`. -/
  | remotePut (target tunnel : Identifier) (value : Expr) (callSpan span : Span)
  /-- Written `target.tunnel.get()` or `target.tunnel.take()`. -/
  | remoteRead (target tunnel : Identifier) (reading : Reading) (callSpan span : Span)
  /-- Written `open(body | names)`: the secrets in `names` are public within `body`. -/
  | reveal (body : Expr) (names : List Identifier) (span : Span)
  | readInt (span : Span)

def Expr.span : Expr → Span
  | .int _ span | .bool _ span | .string _ span | .symbol _ span | .binary _ _ _ span | .not _ span
  | .call _ _ _ span | .invoke _ _ _ _ span | .put _ _ _ span | .read _ _ _ span
  | .remotePut _ _ _ _ span | .remoteRead _ _ _ _ span | .reveal _ _ span | .readInt span => span

def Expr.start (expr : Expr) : Position :=
  expr.span.start

structure Assignment where
  target : Identifier
  value : Expr
  span : Span

/-- Blocks only group: a name that is declared in a function is known in the rest of it. -/
inductive Stmt
  | declaration (binder : Binder) (initial : Option Assignment) (span : Span)
  | assign (assignment : Assignment) (span : Span)
  | expression (value : Expr) (span : Span)
  | display (value : Expr) (span : Span)
  | ifThen (condition : Expr) (body : Stmt) (span : Span)
  | ifElse (condition : Expr) (body otherwise : Stmt) (span : Span)
  | whileLoop (condition : Expr) (body : Stmt) (span : Span)
  | forEach (binder : Binder) (group : Identifier) (body : Stmt) (span : Span)
  | returns (value : Option Expr) (span : Span)
  | block (body : List Stmt) (span : Span)

def Stmt.span : Stmt → Span
  | .declaration _ _ span | .assign _ span | .expression _ span | .display _ span
  | .ifThen _ _ span | .ifElse _ _ _ span | .whileLoop _ _ span | .forEach _ _ _ span
  | .returns _ span | .block _ span => span

structure Function where
  returnType : Ty
  name : Identifier
  parameters : List Binder
  body : List Stmt
  span : Span

structure Tunnel where
  binder : Binder
  span : Span

/-- `name` stands for the clients of the kind `client`. -/
structure Group where
  client : Identifier
  name : Identifier
  span : Span

structure Client where
  name : Identifier
  tunnels : List Tunnel
  functions : List Function
  span : Span

structure Server where
  name : Identifier
  groups : List Group
  functions : List Function
  span : Span

structure Program where
  clients : List Client
  server : Server
  span : Span

end Multiparty
