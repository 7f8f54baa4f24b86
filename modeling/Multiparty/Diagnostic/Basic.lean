import Multiparty.Source.Position
import Multiparty.Text.Quoted
import Multiparty.Ty

/-! What can be wrong with a program, and where. -/

namespace Multiparty

/-- The rules of the type system, by what breaks them. -/
inductive Violation
  | duplicatePart (part : String)
  | duplicateFunction (function part : String)
  | reservedFunctionName (function part : String)
  | duplicateTunnel (tunnel part : String)
  | duplicateGroup (group part : String)
  | duplicateVariable (name : String)
  | shadowsTunnel (name : String)
  | shadowsGroup (name : String)
  | undefinedVariable (name : String)
  | undefinedFunction (function part : String)
  | undefinedGroup (group : String)
  | undefinedPart (part : String)
  | undefinedTunnel (tunnel part : String)
  | unboundClient (name : String)
  | operandType (operator place : String) (expected received : Ty)
  | equalityMismatch (left right : Ty)
  | conditionType (construct : String) (received : Ty)
  | assignmentMismatch (name : String) (expected received : Ty)
  | returnMismatch (function : String) (expected received : Ty)
  | arityMismatch (function : String) (expected received : Nat)
  | argumentMismatch (function : String) (place : Nat) (expected received : Ty)
  | tunnelMismatch (tunnel : String) (expected received : Ty)
  | unsupportedTunnelType (tunnel : String) (received : Ty)
  | loopVariableType (received : Ty)
  | outsideServer (construct : String)
  | outsideClient (construct : String)
  | illegalTunnelDirection (tunnel : String)
  | notSecret (name : String) (received : Ty)
  | displayType (received : Ty)
deriving DecidableEq

namespace Violation

/-- The name of the rule. -/
def name : Violation → String
  | .duplicatePart .. => "DuplicatePart"
  | .duplicateFunction .. => "DuplicateFunction"
  | .reservedFunctionName .. => "ReservedFunctionName"
  | .duplicateTunnel .. => "DuplicateTunnel"
  | .duplicateGroup .. => "DuplicateGroup"
  | .duplicateVariable .. => "DuplicateVariable"
  | .shadowsTunnel .. => "ShadowsTunnel"
  | .shadowsGroup .. => "ShadowsGroup"
  | .undefinedVariable .. => "UndefinedVariable"
  | .undefinedFunction .. => "UndefinedFunction"
  | .undefinedGroup .. => "UndefinedGroup"
  | .undefinedPart .. => "UndefinedPart"
  | .undefinedTunnel .. => "UndefinedTunnel"
  | .unboundClient .. => "UnboundClient"
  | .operandType .. => "OperandType"
  | .equalityMismatch .. => "EqualityMismatch"
  | .conditionType .. => "ConditionType"
  | .assignmentMismatch .. => "AssignmentMismatch"
  | .returnMismatch .. => "ReturnMismatch"
  | .arityMismatch .. => "ArityMismatch"
  | .argumentMismatch .. => "ArgumentMismatch"
  | .tunnelMismatch .. => "TunnelMismatch"
  | .unsupportedTunnelType .. => "UnsupportedTunnelType"
  | .loopVariableType .. => "LoopVariableType"
  | .outsideServer .. => "OutsideServer"
  | .outsideClient .. => "OutsideClient"
  | .illegalTunnelDirection .. => "IllegalTunnelDirection"
  | .notSecret .. => "NotSecret"
  | .displayType .. => "DisplayType"

def message : Violation → String
  | .duplicatePart part => "there are two clients with the same name: " ++ part
  | .duplicateFunction function part =>
    "there are two functions with the same name in " ++ part ++ ": " ++ function
  | .reservedFunctionName function part =>
    function ++ " is a tunnel operation and cannot name a function of client " ++ part
  | .duplicateTunnel tunnel part =>
    "there's another tunnel with the same name in " ++ part ++ ": " ++ tunnel
  | .duplicateGroup group part =>
    "there's another group with the same name in " ++ part ++ ": " ++ group
  | .duplicateVariable name => "variable " ++ Text.quoted name ++ " already declared"
  | .shadowsTunnel name => Text.quoted name ++ " is already the name of a tunnel"
  | .shadowsGroup name => Text.quoted name ++ " is already the name of a group"
  | .undefinedVariable name => "variable " ++ Text.quoted name ++ " not declared"
  | .undefinedFunction function part => function ++ "(...) isn't defined in " ++ part
  | .undefinedGroup group => group ++ " is not a declared group"
  | .undefinedPart part => "the group refers to an undeclared client: " ++ part
  | .undefinedTunnel tunnel part => tunnel ++ " isn't defined as a tunnel in " ++ part
  | .unboundClient name => name ++ " is not bound to a client by an enclosing for"
  | .operandType operator place expected received =>
    "the " ++ place ++ " operand of `" ++ operator ++ "` must be " ++ expected.name ++ " but is " ++
      received.name
  | .equalityMismatch left right =>
    "both operands of == must have the same type: " ++ left.name ++ " == " ++ right.name
  | .conditionType construct received =>
    "the " ++ construct ++ " guard must be bool but is " ++ received.name
  | .assignmentMismatch name expected received =>
    "wrong assignment to " ++ name ++ ": " ++ expected.name ++ " = " ++ received.name ++
      ", they must be the same type"
  | .returnMismatch function expected received =>
    "return a " ++ received.name ++ " in a " ++ expected.name ++ " function " ++ function
  | .arityMismatch function expected received =>
    "the function " ++ function ++ "(...) has " ++ toString expected ++ " parameters, called with " ++
      toString received ++ " arguments"
  | .argumentMismatch function place expected received =>
    "argument " ++ toString place ++ " of " ++ function ++ "(...) is " ++ received.name ++
      " but needs " ++ expected.name
  | .tunnelMismatch tunnel expected received =>
    "the tunnel " ++ tunnel ++ " has type " ++ expected.name ++ " but is used with a " ++
      received.name ++ " expression"
  | .unsupportedTunnelType tunnel received =>
    "the tunnel " ++ tunnel ++ " cannot carry " ++ received.name ++
      ", only int, sint, bool and sbool"
  | .loopVariableType received => "for each is only allowed over clients, not " ++ received.name
  | .outsideServer construct => construct ++ " can be used only within the server"
  | .outsideClient construct => construct ++ " can be used only within clients"
  | .illegalTunnelDirection tunnel =>
    "tunnels only flow from clients to the server, the server cannot put into " ++ tunnel
  | .notSecret name received =>
    "open only on secret variables, " ++ name ++ " is " ++ received.name
  | .displayType received => "you can only display strings, not " ++ received.name

end Violation

inductive Cause
  | unrecognised (text : String)
  | unexpected (token : String)
  | unexpectedFor (token reason : String)
  | numberRange (token : String)
  | violation (violated : Violation)
deriving DecidableEq

namespace Cause

def name : Cause → String
  | .unrecognised _ => "UnrecognisedToken"
  | .unexpected _ => "UnexpectedToken"
  | .unexpectedFor _ _ => "UnexpectedTokenDetailed"
  | .numberRange _ => "NumberParseError"
  | .violation _ => "SemanticViolation"

def message : Cause → String
  | .unrecognised text => "unrecognised token: " ++ Text.quoted text
  | .unexpected token => "unexpected token: " ++ Text.quoted token
  | .unexpectedFor token reason =>
    "unexpected token (" ++ Text.quoted reason ++ "): " ++ Text.quoted token
  | .numberRange token => "error parsing number: " ++ Text.quoted token
  | .violation violated => "semantic violation: " ++ violated.message

/-- What the programmer may want to look at. -/
def tip? : Cause → Option String
  | .unrecognised _ => none
  | .unexpected token => some ("Unexpected token: `" ++ token ++ "`, did you miss a semicolon?")
  | .unexpectedFor token reason => some ("Unexpected token: `" ++ token ++ "`, " ++ reason)
  | .numberRange token =>
    some ("Invalid number: `" ++ token ++ "`, is it above the integer limit?")
  | .violation violated => some violated.message

end Cause

structure Diagnostic where
  cause : Cause
  position : Position
deriving DecidableEq

namespace Diagnostic

def violation (violated : Violation) (position : Position) : Diagnostic :=
  ⟨.violation violated, position⟩

def message (diagnostic : Diagnostic) : String :=
  diagnostic.cause.message

end Diagnostic
end Multiparty
