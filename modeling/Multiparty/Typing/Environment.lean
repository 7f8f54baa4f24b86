import Multiparty.Tree.Basic
import Multiparty.Typing.Names

/-! What checking knows: the parts registered so far, their functions, and the variables of each function. -/

namespace Multiparty

/-- A registered part. Clients are known by the order in which they were registered. -/
inductive Part
  | client (index : Nat)
  | server
deriving DecidableEq

namespace Part

def describe : Part → String
  | .client index => "Client(" ++ toString index ++ ")"
  | .server => "Server"

end Part

/-- Where checking stands. `invoking` is the client whose function a method invocation calls. -/
structure Scope where
  part : Part
  function : String
  invoking : Option Nat
deriving DecidableEq

namespace Scope

def of (part : Part) (function : String) : Scope :=
  ⟨part, function, none⟩

def invokingOn (client : Nat) (scope : Scope) : Scope :=
  { scope with invoking := some client }

/-- Arguments are checked where the call stands, not where the called function is. -/
def caller (scope : Scope) : Scope :=
  { scope with invoking := none }

/-- The part in which a called function is looked up. -/
def callTarget (scope : Scope) : Part :=
  match scope.invoking with
  | some client => .client client
  | none => scope.part

end Scope

/-- `bindings` gives for each loop variable the client that it stands for. -/
structure FunctionScope where
  function : Function
  symbols : Names Ty
  bindings : Names Nat

namespace FunctionScope

def of (function : Function) : FunctionScope :=
  ⟨function, .empty, .empty⟩

end FunctionScope

/-- What a part declares beside its functions. -/
inductive Members
  | tunnels (types : Names Ty)
  | groups (clients : Names Nat)

structure PartScope where
  name : String
  functions : Names FunctionScope
  members : Members

namespace PartScope

def tunnel? (name : String) (part : PartScope) : Option Ty :=
  match part.members with
  | .tunnels types => types.find? name
  | .groups _ => none

def group? (name : String) (part : PartScope) : Option Nat :=
  match part.members with
  | .tunnels _ => none
  | .groups clients => clients.find? name

def updateFunction (name : String) (change : FunctionScope → FunctionScope) (part : PartScope) :
    PartScope :=
  { part with functions := part.functions.update name change }

end PartScope

structure Environment where
  clients : List PartScope
  server : Option PartScope

namespace Environment

def empty : Environment :=
  ⟨[], none⟩

/-- The first client of that name. -/
def findClient? (name : String) (environment : Environment) : Option Nat :=
  environment.clients.findIdx? fun client => client.name == name

def part? (environment : Environment) : Part → Option PartScope
  | .client index => environment.clients[index]?
  | .server => environment.server

/-- Does nothing to a part that is not registered. -/
def updatePart (part : Part) (change : PartScope → PartScope) (environment : Environment) :
    Environment :=
  match part with
  | .client index => { environment with clients := environment.clients.modify index change }
  | .server => { environment with server := environment.server.map change }

def function? (scope : Scope) (environment : Environment) : Option FunctionScope :=
  (environment.part? scope.part).bind fun part => part.functions.find? scope.function

def updateFunction (scope : Scope) (change : FunctionScope → FunctionScope)
    (environment : Environment) : Environment :=
  environment.updatePart scope.part (·.updateFunction scope.function change)

end Environment
end Multiparty
