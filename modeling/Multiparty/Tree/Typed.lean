import Multiparty.Source.Position
import Multiparty.Tree.Operator
import Multiparty.Ty

/-! Programs after checking: each expression carries its type, and whatever concerns a client names the
client that it was resolved to. -/

namespace Multiparty.Typed

/-- What checking found out about an expression, and where the expression stands. -/
structure Mark where
  type : Ty
  span : Span
deriving DecidableEq

inductive Expr
  | int (value : Int64) (mark : Mark)
  | bool (value : Bool) (mark : Mark)
  | string (value : String) (mark : Mark)
  | symbol (name : String) (mark : Mark)
  | binary (operator : Operator) (left right : Expr) (mark : Mark)
  | not (operand : Expr) (mark : Mark)
  | call (function : String) (arguments : List Expr) (mark : Mark)
  | invoke (target client function : String) (arguments : List Expr) (mark : Mark)
  | put (tunnel : String) (value : Expr) (mark : Mark)
  | read (tunnel : String) (reading : Reading) (mark : Mark)
  | remotePut (target client tunnel : String) (value : Expr) (mark : Mark)
  | remoteRead (target client tunnel : String) (reading : Reading) (mark : Mark)
  | reveal (body : Expr) (names : List String) (mark : Mark)
  | readInt (mark : Mark)

def Expr.mark : Expr → Mark
  | .int _ mark | .bool _ mark | .string _ mark | .symbol _ mark | .binary _ _ _ mark
  | .not _ mark | .call _ _ mark | .invoke _ _ _ _ mark | .put _ _ mark | .read _ _ mark
  | .remotePut _ _ _ _ mark | .remoteRead _ _ _ _ mark | .reveal _ _ mark | .readInt mark => mark

def Expr.type (expr : Expr) : Ty :=
  expr.mark.type

def Expr.span (expr : Expr) : Span :=
  expr.mark.span

def Expr.start (expr : Expr) : Position :=
  expr.span.start

inductive Stmt
  | declaration (name : String) (type : Ty) (initial : Option Expr) (span : Span)
  | assign (target : String) (value : Expr) (span : Span)
  | expression (value : Expr) (span : Span)
  | display (value : Expr) (span : Span)
  | ifThen (condition : Expr) (body : Stmt) (span : Span)
  | ifElse (condition : Expr) (body otherwise : Stmt) (span : Span)
  | whileLoop (condition : Expr) (body : Stmt) (span : Span)
  /-- The loop variable stands for the members of `group`, which are clients of the kind `client`. -/
  | forEach (name group client : String) (body : Stmt) (span : Span)
  | returns (value : Option Expr) (type : Ty) (span : Span)
  | block (body : List Stmt) (span : Span)

structure Parameter where
  type : Ty
  name : String
deriving DecidableEq

structure Function where
  returnType : Ty
  name : String
  parameters : List Parameter
  body : List Stmt
  span : Span

/-- `type` is the type of the values that travel through the tunnel. -/
structure Tunnel where
  type : Ty
  name : String
  span : Span
deriving DecidableEq

structure Group where
  client : String
  name : String
  span : Span
deriving DecidableEq

structure Client where
  name : String
  tunnels : List Tunnel
  functions : List Function
  span : Span

structure Server where
  name : String
  groups : List Group
  functions : List Function
  span : Span

structure Program where
  clients : List Client
  server : Server
  span : Span

end Multiparty.Typed
