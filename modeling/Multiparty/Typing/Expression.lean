import Multiparty.Tree.Typed
import Multiparty.Typing.Checking

/-! The types of expressions. -/

namespace Multiparty.Typing
open Checking

def requireServer (scope : Scope) (construct : String) (place : Position) : Checking Unit :=
  if scope.part = .server then return () else violation (.outsideServer construct) place

def requireClient (scope : Scope) (construct : String) (place : Position) : Checking Unit :=
  if scope.part = .server then violation (.outsideClient construct) place else return ()

def requireOperand (operator place : String) (operand : Typed.Expr) (expected : Ty) :
    Checking Unit :=
  if operand.type.compatible expected then return ()
  else violation (.operandType operator place expected operand.type) operand.start

/-- What an operator asks of both operands and what it gives. Arithmetic on secrets gives a public number. -/
def signature (operator : Operator) : Ty × Ty :=
  if operator.isArithmetic then (.int, .int)
  else if operator.isLogical then (.bool, .bool)
  else (.int, .bool)

def checkBinary (operator : Operator) (left right : Typed.Expr) : Checking Ty :=
  if operator = .equal then
    if left.type.compatible right.type then return .bool
    else violation (.equalityMismatch left.type right.type) right.start
  else do
    let (operand, result) := signature operator
    requireOperand operator.symbol "left" left operand
    requireOperand operator.symbol "right" right operand
    return result

/-- The function that a call means, if it takes that many arguments. -/
def callee (target : Part) (called : Identifier) (received : Nat) (callSpan : Span) :
    Checking Function := do
  let owner ← part target
  match owner.functions.find? called.name with
  | none => violation (.undefinedFunction called.name owner.name) called.span.start
  | some found =>
    let expected := found.function.parameters.length
    if expected = received then return found.function
    else violation (.arityMismatch called.name expected received) callSpan.start

/-- A secret parameter takes a public argument, never the other way round. -/
def requireArgument (called : String) (place : Nat) (parameter : Binder) (argument : Typed.Expr) :
    Checking Unit :=
  if parameter.type.compatible argument.type then return ()
  else violation (.argumentMismatch called place parameter.type argument.type) argument.start

/-- The type of the values in a tunnel of `owner`. -/
def carriedType (owner : Part) (tunnel : Identifier) : Checking Ty := do
  let owner ← part owner
  match owner.tunnel? tunnel.name with
  | some carried => return carried
  | none => violation (.undefinedTunnel tunnel.name owner.name) tunnel.span.start

mutual

def checkExpr (scope : Scope) : Expr → Checking Typed.Expr
  | .int value span => return .int value ⟨.int, span⟩
  | .bool value span => return .bool value ⟨.bool, span⟩
  | .string value span => return .string value ⟨.string, span⟩
  | .symbol name span => do
    let type ← resolve scope name span.start
    return .symbol name ⟨type, span⟩
  | .binary operator left right span => do
    let left ← checkExpr scope left
    let right ← checkExpr scope right
    let type ← checkBinary operator left right
    return .binary operator left right ⟨type, span⟩
  | .not operand span => do
    let operand ← checkExpr scope operand
    requireOperand "not" "only" operand .bool
    return .not operand ⟨.bool, span⟩
  | .call called arguments callSpan span => do
    let function ← callee scope.callTarget called arguments.length callSpan
    let arguments ← checkArguments scope.caller called.name 1 function.parameters arguments
    return .call called.name arguments ⟨function.returnType, span⟩
  | .invoke target called arguments callSpan span => do
    requireServer scope "method invocations" span.start
    let client ← boundClient scope target
    let function ← callee (.client client) called arguments.length callSpan
    let arguments ← checkArguments scope.caller called.name 1 function.parameters arguments
    let owner ← part (.client client)
    return .invoke target.name owner.name called.name arguments ⟨function.returnType, span⟩
  | .put tunnel value _ span => do
    requireClient scope "tunnel operations" span.start
    let carried ← carriedType scope.part tunnel
    let value ← checkExpr scope value
    if value.type = carried then return .put tunnel.name value ⟨.void, span⟩
    else violation (.tunnelMismatch tunnel.name carried value.type) value.start
  | .read tunnel reading _ span => do
    requireClient scope "tunnel operations" span.start
    let carried ← carriedType scope.part tunnel
    return .read tunnel.name reading ⟨carried, span⟩
  | .remotePut _ tunnel _ _ span => do
    requireServer scope "remote tunnel access" span.start
    violation (.illegalTunnelDirection tunnel.name) span.start
  | .remoteRead target tunnel reading _ span => do
    requireServer scope "remote tunnel access" span.start
    let client ← boundClient scope target
    let carried ← carriedType (.client client) tunnel
    let owner ← part (.client client)
    return .remoteRead target.name owner.name tunnel.name reading ⟨carried, span⟩
  | .reveal body names span => do
    requireServer scope "open" span.start
    let body ← withOpened scope names (checkExpr scope body)
    return .reveal body (names.map Identifier.name) ⟨body.type, span⟩
  | .readInt span => return .readInt ⟨.sint, span⟩

/-- Arguments with the parameters they are for, counted from `place`. -/
def checkArguments (scope : Scope) (called : String) (place : Nat) :
    List Binder → List Expr → Checking (List Typed.Expr)
  | parameter :: parameters, argument :: arguments => do
    let checked ← checkExpr scope argument
    requireArgument called place parameter checked
    let others ← checkArguments scope called (place + 1) parameters arguments
    return checked :: others
  | _, _ => return []

end

end Multiparty.Typing
