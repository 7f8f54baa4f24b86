import Multiparty.Typing.Statement

/-! Checking programs: clients in their order, then the server. A function knows itself and the functions
before it in its part, and the server knows every client. -/

namespace Multiparty

def Tunnel.typed (tunnel : Tunnel) : Typed.Tunnel :=
  ⟨tunnel.binder.type, tunnel.binder.name.name, tunnel.span⟩

def Group.typed (group : Group) : Typed.Group :=
  ⟨group.client.name, group.name.name, group.span⟩

namespace Typing
open Checking

def registerFunction (target : Part) (function : Function) (environment : Environment) :
    Environment :=
  environment.updatePart target fun owner =>
    { owner with functions := owner.functions.set function.name.name (.of function) }

/-- The names of tunnel operations are no names for functions of a client. -/
def admitFunction (target : Part) (function : Function) : Checking Unit := do
  let name := function.name.name
  let owner ← part target
  if owner.functions.contains name then
    violation (.duplicateFunction name owner.name) function.name.span.start
  else if target ≠ .server ∧ isTunnelOperation name then
    violation (.reservedFunctionName name owner.name) function.name.span.start
  else change (registerFunction target function)

def checkFunction (options : Options) (target : Part) (function : Function) :
    Checking Typed.Function := do
  let scope := Scope.of target function.name.name
  admitFunction target function
  let _ ← each (declare scope) function.parameters
  let body ← checkStmts options scope function.body
  let parameters := function.parameters.map fun binder => ⟨binder.type, binder.name.name⟩
  return ⟨function.returnType, function.name.name, parameters, body, function.span⟩

/-- Adds tunnels of the client `owner` to those in `known`. -/
def declareTunnels (owner : String) (known : Names Ty) : List Tunnel → Except Diagnostic (Names Ty)
  | [] => .ok known
  | tunnel :: rest =>
    let name := tunnel.binder.name.name
    let type := tunnel.binder.type
    if known.contains name then
      .error (.violation (.duplicateTunnel name owner) tunnel.binder.name.span.start)
    else if type.isTunnelable then declareTunnels owner (known.set name type) rest
    else .error (.violation (.unsupportedTunnelType name type) tunnel.binder.span.start)

/-- Adds groups of the server `owner` to those in `known`. -/
def declareGroups (environment : Environment) (owner : String) (known : Names Nat) :
    List Group → Except Diagnostic (Names Nat)
  | [] => .ok known
  | group :: rest =>
    match environment.findClient? group.client.name with
    | none => .error (.violation (.undefinedPart group.client.name) group.client.span.start)
    | some client =>
      if known.contains group.name.name then
        .error (.violation (.duplicateGroup group.name.name owner) group.name.span.start)
      else declareGroups environment owner (known.set group.name.name client) rest

def addClient (client : PartScope) (environment : Environment) : Environment :=
  { environment with clients := environment.clients ++ [client] }

def setServer (server : PartScope) (environment : Environment) : Environment :=
  { environment with server := some server }

def checkClient (options : Options) (client : Client) : Checking Typed.Client := do
  let name := client.name.name
  match ← observe (·.findClient? name) with
  | some _ => violation (.duplicatePart name) client.name.span.start
  | none => do
    let tunnels ← ofExcept (declareTunnels name .empty client.tunnels)
    let index ← observe (·.clients.length)
    change (addClient ⟨name, .empty, .tunnels tunnels⟩)
    let functions ← each (checkFunction options (.client index)) client.functions
    return ⟨name, client.tunnels.map Tunnel.typed, functions, client.span⟩

def checkServer (options : Options) (server : Server) : Checking Typed.Server := do
  let name := server.name.name
  let environment ← observe id
  let groups ← ofExcept (declareGroups environment name .empty server.groups)
  change (setServer ⟨name, .empty, .groups groups⟩)
  let functions ← each (checkFunction options .server) server.functions
  return ⟨name, server.groups.map Group.typed, functions, server.span⟩

def checkParts (options : Options) (program : Program) : Checking Typed.Program := do
  let clients ← each (checkClient options) program.clients
  let server ← checkServer options program.server
  return ⟨clients, server, program.span⟩

/-- The typed program, or the first violation in it. -/
def checkProgram (options : Options) (program : Program) : Except Diagnostic Typed.Program :=
  (checkParts options program Environment.empty).1

end Typing
end Multiparty
