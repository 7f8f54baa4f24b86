import Multiparty.Proofs.Operations

/-! The course of a check. A check maps environments to environments and does not show those in between. A script is
the same check as the sequence of its steps, so that every moment of it can be told. -/

namespace Multiparty.Typing
open Checking

/-- A `step` looks at the environment and changes it at most once, as the last thing it does. -/
inductive Script : Type → Type 1
  | step {α : Type} (check : Checking α) : Script α
  | bind {α β : Type} (first : Script α) (next : α → Script β) : Script β
  | restoring {α : Type} (restore : Environment → Environment) (inner : Script α) : Script α
  /-- A loop whose variable stands for `client`. -/
  | looping {α : Type} (scope : Scope) (name : String) (client : Nat) (inner : Script α) : Script α
  /-- A function that is registered already. -/
  | within {α : Type} (scope : Scope) (inner : Script α) : Script α

namespace Script

instance : Monad Script where
  pure value := .step (pure value)
  bind := .bind

/-- The check whose course the script is. -/
def run {α : Type} : Script α → Checking α
  | .step check => check
  | .bind first next => first.run >>= fun value => (next value).run
  | .restoring restore inner => Checking.restoring restore inner.run
  | .looping scope name client inner => do
    change (bindVariable scope name client)
    Checking.restoring (unbindVariable scope name) inner.run
  | .within _ inner => inner.run

end Script

def Standing.enter (name : String) (standing : Standing) : Standing :=
  { standing with loops := name :: standing.loops }

/-- The moments of a script that begins at the first moment: its own and those of its parts, from the first to the
last, or to the violation that it stops at. -/
inductive Script.Visits : {α : Type} → Script α → Moment → Moment → Prop
  | start {α : Type} {script : Script α} {moment : Moment} : Visits script moment moment
  | finish {α : Type} {script : Script α} {moment : Moment} :
    Visits script moment ⟨moment.standing, (script.run moment.environment).2⟩
  | first {α β : Type} {first : Script α} {next : α → Script β} {before after : Moment} :
    Visits first before after → Visits (.bind first next) before after
  | next {α β : Type} {first : Script α} {next : α → Script β} {value : α} {before after : Moment}
      {later : Environment} :
    first.run before.environment = (.ok value, later) → Visits (next value) ⟨before.standing, later⟩ after →
    Visits (.bind first next) before after
  | restoring {α : Type} {restore : Environment → Environment} {inner : Script α} {before after : Moment} :
    Visits inner before after → Visits (.restoring restore inner) before after
  | looping {α : Type} {scope : Scope} {name : String} {client : Nat} {inner : Script α}
      {before after : Moment} :
    Visits inner ⟨before.standing.map (.enter name), bindVariable scope name client before.environment⟩ after →
    Visits (.looping scope name client inner) before after
  | within {α : Type} {scope : Scope} {inner : Script α} {before after : Moment} :
    Visits inner ⟨some ⟨scope, []⟩, before.environment⟩ after → Visits (.within scope inner) before after

namespace Script
variable {α β : Type}

@[simp] theorem run_pure (value : α) : (pure value : Script α).run = pure value := rfl

@[simp] theorem run_bind (first : Script α) (next : α → Script β) :
    (first >>= next).run = first.run >>= fun value => (next value).run := rfl

@[simp] theorem run_step (check : Checking α) : (step check).run = check := rfl

@[simp] theorem run_restoring (restore : Environment → Environment) (inner : Script α) :
    (restoring restore inner).run = Checking.restoring restore inner.run := rfl

@[simp] theorem run_within (scope : Scope) (inner : Script α) : (within scope inner).run = inner.run := rfl

@[simp] theorem run_ite {condition : Prop} [Decidable condition] (script other : Script α) :
    (if condition then script else other).run = if condition then script.run else other.run :=
  apply_ite run condition script other

def each (item : α → Script β) : List α → Script (List β)
  | [] => return []
  | first :: rest => do
    let checked ← item first
    let others ← each item rest
    return checked :: others

theorem run_each {item : α → Script β} {check : α → Checking β} (same : ∀ value, (item value).run = check value)
    (items : List α) : (each item items).run = Checking.each check items := by
  induction items with
  | nil => rfl
  | cons first rest ih => simp only [each, Checking.each, run_bind, run_pure, same, ih]

def opened (scope : Scope) : List Identifier → Script α → Script α
  | [], inner => inner
  | opened :: rest, inner => do
    let secret ← step (openVariable scope opened)
    restoring (setVariable scope opened.name secret) (Script.opened scope rest inner)

theorem run_opened (scope : Scope) (names : List Identifier) (inner : Script α) :
    (opened scope names inner).run = withOpened scope names inner.run := by
  induction names with
  | nil => rfl
  | cons opened rest ih => simp only [Script.opened, withOpened, run_bind, run_step, run_restoring, ih]

/-- The body of a loop whose variable is still to be declared. -/
def loop (scope : Scope) (binder : Binder) (client : Nat) (inner : Script α) : Script α := do
  step (declare scope binder)
  looping scope binder.name.name client inner

theorem run_loop (scope : Scope) (binder : Binder) (client : Nat) (inner : Script α) :
    (loop scope binder client inner).run = withLoopBinding scope binder client inner.run := rfl

mutual

/-- Expressions without further ones in them are checked in one step. -/
def ofExpr (scope : Scope) : Expr → Script Typed.Expr
  | .binary operator left right span => do
    let left ← ofExpr scope left
    let right ← ofExpr scope right
    let type ← step (checkBinary operator left right)
    return .binary operator left right ⟨type, span⟩
  | .not operand span => do
    let operand ← ofExpr scope operand
    step (requireOperand "not" "only" operand .bool)
    return .not operand ⟨.bool, span⟩
  | .call called arguments callSpan span => do
    let function ← step (callee scope.callTarget called arguments.length callSpan)
    let arguments ← ofArguments scope.caller called.name 1 function.parameters arguments
    return .call called.name arguments ⟨function.returnType, span⟩
  | .invoke target called arguments callSpan span => do
    step (requireServer scope "method invocations" span.start)
    let client ← step (boundClient scope target)
    let function ← step (callee (.client client) called arguments.length callSpan)
    let arguments ← ofArguments scope.caller called.name 1 function.parameters arguments
    let owner ← step (part (.client client))
    return .invoke target.name owner.name called.name arguments ⟨function.returnType, span⟩
  | .put tunnel value _ span => do
    step (requireClient scope "tunnel operations" span.start)
    let carried ← step (carriedType scope.part tunnel)
    let value ← ofExpr scope value
    if value.type = carried then return .put tunnel.name value ⟨.void, span⟩
    else step (violation (.tunnelMismatch tunnel.name carried value.type) value.start)
  | .reveal body names span => do
    step (requireServer scope "open" span.start)
    let body ← opened scope names (ofExpr scope body)
    return .reveal body (names.map Identifier.name) ⟨body.type, span⟩
  | expr => step (checkExpr scope expr)

def ofArguments (scope : Scope) (called : String) (place : Nat) :
    List Binder → List Expr → Script (List Typed.Expr)
  | parameter :: parameters, argument :: arguments => do
    let checked ← ofExpr scope argument
    step (requireArgument called place parameter checked)
    let others ← ofArguments scope called (place + 1) parameters arguments
    return checked :: others
  | _, _ => return []

end

mutual

theorem run_ofExpr (scope : Scope) (expr : Expr) : (ofExpr scope expr).run = checkExpr scope expr := by
  cases expr with
  | binary operator left right span =>
    simp only [ofExpr, checkExpr, run_bind, run_step, run_pure, run_ofExpr scope left, run_ofExpr scope right]
  | not operand span =>
    simp only [ofExpr, checkExpr, run_bind, run_step, run_pure, run_ofExpr scope operand]
  | call called arguments callSpan span =>
    simp only [ofExpr, checkExpr, run_bind, run_step, run_pure, run_ofArguments _ _ _ _ arguments]
  | invoke target called arguments callSpan span =>
    simp only [ofExpr, checkExpr, run_bind, run_step, run_pure, run_ofArguments _ _ _ _ arguments]
  | put tunnel value callSpan span =>
    simp only [ofExpr, checkExpr, run_bind, run_step, run_pure, run_ite, run_ofExpr scope value]
  | reveal body names span =>
    simp only [ofExpr, checkExpr, run_bind, run_step, run_pure, run_opened, run_ofExpr scope body]
  | int | bool | string | symbol | read | remotePut | remoteRead | readInt => rfl
termination_by structural expr

theorem run_ofArguments (scope : Scope) (called : String) (place : Nat) (parameters : List Binder)
    (arguments : List Expr) :
    (ofArguments scope called place parameters arguments).run =
      checkArguments scope called place parameters arguments := by
  match parameters, arguments with
  | [], [] | [], _ :: _ | _ :: _, [] => rfl
  | parameter :: parameters, argument :: arguments =>
    simp only [ofArguments, checkArguments, run_bind, run_step, run_pure, run_ofExpr scope argument,
      run_ofArguments _ _ _ _ arguments]
termination_by structural arguments

end

def ofAssignment (scope : Scope) (assignment : Assignment) : Script Typed.Expr := do
  let target := assignment.target
  let current ← step (function scope)
  match current.symbols.find? target.name with
  | none => step (violation (.undefinedVariable target.name) target.span.start)
  | some expected => do
    let value ← ofExpr scope assignment.value
    if value.type = expected then return value
    else step (violation (.assignmentMismatch target.name expected value.type) value.start)

theorem run_ofAssignment (scope : Scope) (assignment : Assignment) :
    (ofAssignment scope assignment).run = checkAssignment scope assignment := by
  simp only [ofAssignment, checkAssignment, run_bind, run_step]
  congr 1
  funext current
  cases current.symbols.find? assignment.target.name with
  | none => rfl
  | some expected => simp only [run_bind, run_pure, run_step, run_ite, run_ofExpr]

def ofInitial (scope : Scope) : Option Assignment → Script (Option Typed.Expr)
  | none => return none
  | some assignment => do
    let value ← ofAssignment scope assignment
    return some value

theorem run_ofInitial (scope : Scope) (initial : Option Assignment) :
    (ofInitial scope initial).run = checkInitial scope initial := by
  cases initial with
  | none => rfl
  | some assignment => simp only [ofInitial, checkInitial, run_bind, run_pure, run_ofAssignment]

def ofCondition (scope : Scope) (construct : String) (condition : Expr) : Script Typed.Expr := do
  let condition ← ofExpr scope condition
  if condition.type.compatible .bool then return condition
  else step (violation (.conditionType construct condition.type) condition.start)

theorem run_ofCondition (scope : Scope) (construct : String) (condition : Expr) :
    (ofCondition scope construct condition).run = checkCondition scope construct condition := by
  simp only [ofCondition, checkCondition, run_bind, run_pure, run_step, run_ite, run_ofExpr]

def ofReturned (scope : Scope) : Option Expr → Script (Option Typed.Expr)
  | none => return none
  | some value => do
    let value ← ofExpr scope value
    return some value

theorem run_ofReturned (scope : Scope) (value : Option Expr) :
    (ofReturned scope value).run = checkReturned scope value := by
  cases value with
  | none => rfl
  | some value => simp only [ofReturned, checkReturned, run_bind, run_pure, run_ofExpr]

mutual

def ofStmt (options : Options) (scope : Scope) : Stmt → Script Typed.Stmt
  | .declaration binder initial span => do
    step (declare scope binder)
    let value ← ofInitial scope initial
    return .declaration binder.name.name binder.type value span
  | .assign assignment span => do
    let value ← ofAssignment scope assignment
    return .assign assignment.target.name value span
  | .expression value span => do
    let value ← ofExpr scope value
    return .expression value span
  | .display value span => do
    let value ← ofExpr scope value
    if options.strictDisplay ∧ value.type ≠ .string then
      step (violation (.displayType value.type) value.start)
    else return .display value span
  | .ifThen condition body span => do
    let condition ← ofCondition scope "if" condition
    let body ← ofStmt options scope body
    return .ifThen condition body span
  | .ifElse condition body otherwise span => do
    let condition ← ofCondition scope "if" condition
    let body ← ofStmt options scope body
    let otherwise ← ofStmt options scope otherwise
    return .ifElse condition body otherwise span
  | .whileLoop condition body span => do
    let condition ← ofCondition scope "while" condition
    let body ← ofStmt options scope body
    return .whileLoop condition body span
  | .forEach binder group body span => do
    step (requireServer scope "for loops" span.start)
    if binder.type = .client then do
      let client ← step (groupClient scope group)
      let body ← loop scope binder client (ofStmt options scope body)
      let owner ← step (part (.client client))
      return .forEach binder.name.name group.name owner.name body span
    else step (violation (.loopVariableType binder.type) binder.span.start)
  | .returns value span => do
    let current ← step (function scope)
    let expected := current.function.returnType
    let value ← ofReturned scope value
    let type := returnedType value
    if type = expected then return .returns value type span
    else step (violation (.returnMismatch scope.function expected type) span.start)
  | .block body span => do
    let body ← ofStmts options scope body
    return .block body span

def ofStmts (options : Options) (scope : Scope) : List Stmt → Script (List Typed.Stmt)
  | [] => return []
  | first :: rest => do
    let checked ← ofStmt options scope first
    let others ← ofStmts options scope rest
    return checked :: others

end

mutual

theorem run_ofStmt (options : Options) (scope : Scope) (stmt : Stmt) :
    (ofStmt options scope stmt).run = checkStmt options scope stmt := by
  cases stmt with
  | declaration binder initial span =>
    simp only [ofStmt, checkStmt, run_bind, run_step, run_pure, run_ofInitial]
  | assign assignment span => simp only [ofStmt, checkStmt, run_bind, run_pure, run_ofAssignment]
  | expression value span => simp only [ofStmt, checkStmt, run_bind, run_pure, run_ofExpr]
  | display value span =>
    simp only [ofStmt, checkStmt, run_bind, run_step, run_pure, run_ite, run_ofExpr]
  | ifThen condition body span =>
    simp only [ofStmt, checkStmt, run_bind, run_pure, run_ofCondition, run_ofStmt options scope body]
  | ifElse condition body otherwise span =>
    simp only [ofStmt, checkStmt, run_bind, run_pure, run_ofCondition, run_ofStmt options scope body,
      run_ofStmt options scope otherwise]
  | whileLoop condition body span =>
    simp only [ofStmt, checkStmt, run_bind, run_pure, run_ofCondition, run_ofStmt options scope body]
  | forEach binder group body span =>
    simp only [ofStmt, checkStmt, run_bind, run_step, run_pure, run_ite, run_loop,
      run_ofStmt options scope body]
  | returns value span =>
    simp only [ofStmt, checkStmt, run_bind, run_step, run_pure, run_ite, run_ofReturned]
  | block body span => simp only [ofStmt, checkStmt, run_bind, run_pure, run_ofStmts options scope body]
termination_by structural stmt

theorem run_ofStmts (options : Options) (scope : Scope) (stmts : List Stmt) :
    (ofStmts options scope stmts).run = checkStmts options scope stmts := by
  cases stmts with
  | nil => rfl
  | cons first rest =>
    simp only [ofStmts, checkStmts, run_bind, run_pure, run_ofStmt options scope first,
      run_ofStmts options scope rest]
termination_by structural stmts

end

def ofFunction (options : Options) (target : Part) (function : Function) : Script Typed.Function := do
  let scope := Scope.of target function.name.name
  step (admitFunction target function)
  within scope do
    let _ ← each (fun binder => step (declare scope binder)) function.parameters
    let body ← ofStmts options scope function.body
    let parameters := function.parameters.map fun binder => ⟨binder.type, binder.name.name⟩
    return ⟨function.returnType, function.name.name, parameters, body, function.span⟩

theorem run_ofFunction (options : Options) (target : Part) (function : Function) :
    (ofFunction options target function).run = checkFunction options target function := by
  simp only [ofFunction, checkFunction, run_bind, run_step, run_pure, run_within, run_ofStmts,
    run_each fun _ => run_step _]

def ofClient (options : Options) (client : Client) : Script Typed.Client := do
  let name := client.name.name
  match ← step (observe (·.findClient? name)) with
  | some _ => step (violation (.duplicatePart name) client.name.span.start)
  | none => do
    let tunnels ← step (ofExcept (declareTunnels name .empty client.tunnels))
    let index ← step (observe (·.clients.length))
    step (change (addClient ⟨name, .empty, .tunnels tunnels⟩))
    let functions ← each (ofFunction options (.client index)) client.functions
    return ⟨name, client.tunnels.map Tunnel.typed, functions, client.span⟩

theorem run_ofClient (options : Options) (client : Client) :
    (ofClient options client).run = checkClient options client := by
  simp only [ofClient, checkClient, run_bind, run_step]
  congr 1
  funext found
  cases found with
  | some => rfl
  | none => simp only [run_bind, run_step, run_pure, run_each fun function => run_ofFunction options _ function]

def ofServer (options : Options) (server : Server) : Script Typed.Server := do
  let name := server.name.name
  let environment ← step (observe id)
  let groups ← step (ofExcept (declareGroups environment name .empty server.groups))
  step (change (setServer ⟨name, .empty, .groups groups⟩))
  let functions ← each (ofFunction options .server) server.functions
  return ⟨name, server.groups.map Group.typed, functions, server.span⟩

theorem run_ofServer (options : Options) (server : Server) :
    (ofServer options server).run = checkServer options server := by
  simp only [ofServer, checkServer, run_bind, run_step, run_pure,
    run_each fun function => run_ofFunction options _ function]

def ofParts (options : Options) (program : Program) : Script Typed.Program := do
  let clients ← each (ofClient options) program.clients
  let server ← ofServer options program.server
  return ⟨clients, server, program.span⟩

theorem run_ofParts (options : Options) (program : Program) :
    (ofParts options program).run = checkParts options program := by
  simp only [ofParts, checkParts, run_bind, run_pure, run_ofServer, run_each (run_ofClient options)]

end Script
end Multiparty.Typing
