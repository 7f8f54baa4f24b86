import Multiparty.Typing.Expression

/-! Checking statements. What a statement declares stays known in the rest of its function. -/

namespace Multiparty.Typing
open Checking

/-- With `strictDisplay`, only strings can be displayed. -/
structure Options where
  strictDisplay : Bool
deriving DecidableEq

def checkAssignment (scope : Scope) (assignment : Assignment) : Checking Typed.Expr := do
  let target := assignment.target
  let current ← function scope
  match current.symbols.find? target.name with
  | none => violation (.undefinedVariable target.name) target.span.start
  | some expected => do
    let value ← checkExpr scope assignment.value
    if value.type = expected then return value
    else violation (.assignmentMismatch target.name expected value.type) value.start

def checkInitial (scope : Scope) : Option Assignment → Checking (Option Typed.Expr)
  | none => return none
  | some assignment => do
    let value ← checkAssignment scope assignment
    return some value

def checkCondition (scope : Scope) (construct : String) (condition : Expr) :
    Checking Typed.Expr := do
  let condition ← checkExpr scope condition
  if condition.type.compatible .bool then return condition
  else violation (.conditionType construct condition.type) condition.start

def checkReturned (scope : Scope) : Option Expr → Checking (Option Typed.Expr)
  | none => return none
  | some value => do
    let value ← checkExpr scope value
    return some value

/-- A function that returns nothing is `void`. -/
def returnedType : Option Typed.Expr → Ty
  | none => .void
  | some value => value.type

/-- The client that the members of a group are. -/
def groupClient (scope : Scope) (group : Identifier) : Checking Nat := do
  let owner ← part scope.part
  match owner.group? group.name with
  | some client => return client
  | none => violation (.undefinedGroup group.name) group.span.start

mutual

def checkStmt (options : Options) (scope : Scope) : Stmt → Checking Typed.Stmt
  | .declaration binder initial span => do
    declare scope binder
    let value ← checkInitial scope initial
    return .declaration binder.name.name binder.type value span
  | .assign assignment span => do
    let value ← checkAssignment scope assignment
    return .assign assignment.target.name value span
  | .expression value span => do
    let value ← checkExpr scope value
    return .expression value span
  | .display value span => do
    let value ← checkExpr scope value
    if options.strictDisplay ∧ value.type ≠ .string then
      violation (.displayType value.type) value.start
    else return .display value span
  | .ifThen condition body span => do
    let condition ← checkCondition scope "if" condition
    let body ← checkStmt options scope body
    return .ifThen condition body span
  | .ifElse condition body otherwise span => do
    let condition ← checkCondition scope "if" condition
    let body ← checkStmt options scope body
    let otherwise ← checkStmt options scope otherwise
    return .ifElse condition body otherwise span
  | .whileLoop condition body span => do
    let condition ← checkCondition scope "while" condition
    let body ← checkStmt options scope body
    return .whileLoop condition body span
  | .forEach binder group body span => do
    requireServer scope "for loops" span.start
    if binder.type = .client then
      let client ← groupClient scope group
      let body ← withLoopBinding scope binder client (checkStmt options scope body)
      let owner ← part (.client client)
      return .forEach binder.name.name group.name owner.name body span
    else violation (.loopVariableType binder.type) binder.span.start
  | .returns value span => do
    let current ← function scope
    let expected := current.function.returnType
    let value ← checkReturned scope value
    let type := returnedType value
    if type = expected then return .returns value type span
    else violation (.returnMismatch scope.function expected type) span.start
  | .block body span => do
    let body ← checkStmts options scope body
    return .block body span

def checkStmts (options : Options) (scope : Scope) : List Stmt → Checking (List Typed.Stmt)
  | [] => return []
  | first :: rest => do
    let checked ← checkStmt options scope first
    let others ← checkStmts options scope rest
    return checked :: others

end

end Multiparty.Typing
