import Multiparty.Proofs.Lexing

/-! Typed trees as the trees that they would be written from, without types and places. Typed trees made by hand
need not be writable at all: some have names that no text has, and some have an `else` that the text would give to
another `if`. -/

namespace Multiparty
open Grammar Token

mutual

/-- No `if` that has an `else` has a body that would take the `else` for itself. -/
def Stmt.Closed : Stmt → Prop
  | .declaration _ _ _ | .assign _ _ | .expression _ _ | .display _ _ | .returns _ _ => True
  | .ifThen _ body _ | .whileLoop _ body _ | .forEach _ _ body _ => body.Closed
  | .ifElse _ body otherwise _ => body.endsOpen = false ∧ body.Closed ∧ otherwise.Closed
  | .block body _ => allClosed body

def allClosed : List Stmt → Prop
  | [] => True
  | first :: rest => first.Closed ∧ allClosed rest

end

theorem allClosed_iff (stmts : List Stmt) : allClosed stmts ↔ ∀ stmt ∈ stmts, stmt.Closed := by
  induction stmts with
  | nil => exact ⟨fun _ => nofun, fun _ => trivial⟩
  | cons first rest ih => rw [allClosed, ih, List.forall_mem_cons]

def Function.Closed (function : Function) : Prop :=
  allClosed function.body

def Program.Closed (program : Program) : Prop :=
  (∀ client ∈ program.clients, ∀ function ∈ client.functions, function.Closed) ∧
    ∀ function ∈ program.server.functions, function.Closed

/-- Whether a reserved word names the type. -/
def Ty.isWord : Ty → Bool
  | .int | .sint | .bool | .sbool | .string | .void | .client | .sclient => true
  | _ => false

theorem Ty.word_of_isWord {type : Ty} (written : type.isWord) :
    ∃ word : Kind, word.type? = some type := by
  cases type with
  | int => exact ⟨.intWord, rfl⟩
  | sint => exact ⟨.sintWord, rfl⟩
  | bool => exact ⟨.boolWord, rfl⟩
  | sbool => exact ⟨.sboolWord, rfl⟩
  | string => exact ⟨.stringWord, rfl⟩
  | void => exact ⟨.voidWord, rfl⟩
  | client => exact ⟨.clientWord, rfl⟩
  | sclient => exact ⟨.sclientWord, rfl⟩
  | none | server | group | tunnel => cases written

namespace Typed

mutual

/-- The written expression. It does not name the clients that checking found. -/
def Expr.erased : Expr → Multiparty.Expr
  | .int value _ => .int value .nowhere
  | .bool value _ => .bool value .nowhere
  | .string value _ => .string value .nowhere
  | .symbol name _ => .symbol name .nowhere
  | .binary operator left right _ => .binary operator left.erased right.erased .nowhere
  | .not operand _ => .not operand.erased .nowhere
  | .call function arguments _ => .call (bareName function) (allErased arguments) .nowhere .nowhere
  | .invoke target _ function arguments _ =>
    .invoke (bareName target) (bareName function) (allErased arguments) .nowhere .nowhere
  | .put tunnel value _ => .put (bareName tunnel) value.erased .nowhere .nowhere
  | .read tunnel reading _ => .read (bareName tunnel) reading .nowhere .nowhere
  | .remotePut target _ tunnel value _ =>
    .remotePut (bareName target) (bareName tunnel) value.erased .nowhere .nowhere
  | .remoteRead target _ tunnel reading _ =>
    .remoteRead (bareName target) (bareName tunnel) reading .nowhere .nowhere
  | .reveal body names _ => .reveal body.erased (names.map bareName) .nowhere
  | .readInt _ => .readInt .nowhere

def allErased : List Expr → List Multiparty.Expr
  | [] => []
  | first :: rest => first.erased :: allErased rest

end

/-- A declared name without a place. -/
def bareBinder (type : Ty) (name : String) : Binder :=
  ⟨type, bareName name, .nowhere⟩

mutual

/-- The written statement. An initial value is for the declared variable, and a loop runs over clients. -/
def Stmt.erased : Stmt → Multiparty.Stmt
  | .declaration name type initial _ =>
    .declaration (bareBinder type name)
      (initial.map fun value => ⟨bareName name, value.erased, .nowhere⟩) .nowhere
  | .assign target value _ => .assign ⟨bareName target, value.erased, .nowhere⟩ .nowhere
  | .expression value _ => .expression value.erased .nowhere
  | .display value _ => .display value.erased .nowhere
  | .ifThen condition body _ => .ifThen condition.erased body.erased .nowhere
  | .ifElse condition body otherwise _ =>
    .ifElse condition.erased body.erased otherwise.erased .nowhere
  | .whileLoop condition body _ => .whileLoop condition.erased body.erased .nowhere
  | .forEach name group _ body _ =>
    .forEach (bareBinder .client name) (bareName group) body.erased .nowhere
  | .returns value _ _ => .returns (value.map Expr.erased) .nowhere
  | .block body _ => .block (allStmtsErased body) .nowhere

def allStmtsErased : List Stmt → List Multiparty.Stmt
  | [] => []
  | first :: rest => first.erased :: allStmtsErased rest

end

def Parameter.erased (parameter : Parameter) : Binder :=
  bareBinder parameter.type parameter.name

def Function.erased (function : Function) : Multiparty.Function :=
  ⟨function.returnType, bareName function.name, function.parameters.map Parameter.erased,
    allStmtsErased function.body, .nowhere⟩

def Tunnel.erased (tunnel : Tunnel) : Multiparty.Tunnel :=
  ⟨bareBinder tunnel.type tunnel.name, .nowhere⟩

def Group.erased (group : Group) : Multiparty.Group :=
  ⟨bareName group.client, bareName group.name, .nowhere⟩

def Client.erased (client : Client) : Multiparty.Client :=
  ⟨bareName client.name, client.tunnels.map Tunnel.erased, client.functions.map Function.erased,
    .nowhere⟩

def Server.erased (server : Server) : Multiparty.Server :=
  ⟨bareName server.name, server.groups.map Group.erased, server.functions.map Function.erased,
    .nowhere⟩

def Program.erased (program : Program) : Multiparty.Program :=
  ⟨program.clients.map Client.erased, program.server.erased, .nowhere⟩

mutual

/-- A text can have the names and the integers of the expression. Integers have no sign in a text. -/
def Expr.Writable : Expr → Prop
  | .int value _ => 0 ≤ value.toInt
  | .bool _ _ | .string _ _ | .readInt _ => True
  | .symbol name _ => IsName name
  | .binary _ left right _ => left.Writable ∧ right.Writable
  | .not operand _ => operand.Writable
  | .call function arguments _ => IsName function ∧ allWritable arguments
  | .invoke target _ function arguments _ => IsName target ∧ IsName function ∧
    isTunnelOperation function = false ∧ allWritable arguments
  | .put tunnel value _ => IsName tunnel ∧ value.Writable
  | .read tunnel _ _ => IsName tunnel
  | .remotePut target _ tunnel value _ => IsName target ∧ IsName tunnel ∧ value.Writable
  | .remoteRead target _ tunnel _ _ => IsName target ∧ IsName tunnel
  | .reveal body names _ => body.Writable ∧ names ≠ [] ∧ ∀ name ∈ names, IsName name

def allWritable : List Expr → Prop
  | [] => True
  | first :: rest => first.Writable ∧ allWritable rest

end

mutual

/-- Declared types have to be types that a word names. -/
def Stmt.Writable : Stmt → Prop
  | .declaration name type initial _ =>
    IsName name ∧ type.isWord ∧ ∀ value ∈ initial, value.Writable
  | .assign target value _ => IsName target ∧ value.Writable
  | .expression value _ | .display value _ => value.Writable
  | .ifThen condition body _ | .whileLoop condition body _ => condition.Writable ∧ body.Writable
  | .ifElse condition body otherwise _ => condition.Writable ∧ body.Writable ∧ otherwise.Writable
  | .forEach name group _ body _ => IsName name ∧ IsName group ∧ body.Writable
  | .returns value _ _ => ∀ returned ∈ value, returned.Writable
  | .block body _ => allStmtsWritable body

def allStmtsWritable : List Stmt → Prop
  | [] => True
  | first :: rest => first.Writable ∧ allStmtsWritable rest

end

structure Function.Writable (function : Function) : Prop where
  name : IsName function.name
  returnType : function.returnType.isWord
  parameters : ∀ parameter ∈ function.parameters, IsName parameter.name ∧ parameter.type.isWord
  body : allStmtsWritable function.body

structure Client.Writable (client : Client) : Prop where
  name : IsName client.name
  tunnels : ∀ tunnel ∈ client.tunnels, IsName tunnel.name ∧ tunnel.type.isWord
  functions : ∀ function ∈ client.functions, function.Writable

structure Server.Writable (server : Server) : Prop where
  name : IsName server.name
  groups : ∀ group ∈ server.groups, IsName group.client ∧ IsName group.name
  functions : ∀ function ∈ server.functions, function.Writable

structure Program.Writable (program : Program) : Prop where
  clients : ∀ client ∈ program.clients, client.Writable
  server : program.server.Writable

end Typed
end Multiparty
