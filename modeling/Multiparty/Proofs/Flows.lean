import Multiparty.Proofs.TypingRules

/-! Where values go in a typed program. Initialisers, assignments, returns, arguments and puts carry a value of
one type to a place of a declared type, and both are read from the typed program alone. Only which variable an
initialiser is for stands in the program as it was written. -/

namespace Multiparty

/-- A value that goes to a place. A place that nothing declares has no type. -/
structure Flow where
  place : Option Ty
  value : Ty
  argument : Bool
deriving DecidableEq

namespace Flow

/-- The value has exactly the type of its place. An argument may also have the public counterpart of a secret
parameter. -/
inductive Allowed : Flow → Prop
  | exact {type : Ty} {argument : Bool} : Allowed ⟨some type, type, argument⟩
  | shared {parameter : Ty} : parameter.isSecret → Allowed ⟨some parameter, parameter.publicOf, true⟩

/-- For trees that do not belong together. It is never allowed. -/
def astray : Flow :=
  ⟨none, .none, false⟩

end Flow

/-- A secret value goes to places of its own type only. -/
theorem Flow.Allowed.secret {flow : Flow} (allowed : flow.Allowed) (secret : flow.value.isSecret) :
    flow.place = some flow.value := by
  cases allowed with
  | exact => rfl
  | shared => simp [Ty.isSecret_publicOf] at secret

namespace Typed

/-- The types of the parameters of the function of that name. -/
def parameters? (name : String) (functions : List Function) : Option (List Ty) :=
  (functions.find? fun function => function.name = name).map fun function =>
    function.parameters.map Parameter.type

/-- What a function can name: tunnels and functions of its own part, and clients whose functions it invokes. -/
structure Places where
  tunnels : List Tunnel
  functions : List Function
  clients : List Client

namespace Places

def tunnel? (name : String) (places : Places) : Option Ty :=
  (places.tunnels.find? fun tunnel => tunnel.name = name).map Tunnel.type

def called? (name : String) (places : Places) : Option (List Ty) :=
  parameters? name places.functions

def client? (name : String) (places : Places) : Option Client :=
  places.clients.find? fun client => client.name = name

def invoked? (client name : String) (places : Places) : Option (List Ty) :=
  (places.client? client).bind fun client => parameters? name client.functions

def remoteTunnel? (client name : String) (places : Places) : Option Ty :=
  (places.client? client).bind fun client =>
    (client.tunnels.find? fun tunnel => tunnel.name = name).map Tunnel.type

end Places

mutual

def Expr.flows (places : Places) : Expr → List Flow
  | .int _ _ | .bool _ _ | .string _ _ | .symbol _ _ | .read _ _ _ | .remoteRead _ _ _ _ _
  | .readInt _ => []
  | .binary _ left right _ => left.flows places ++ right.flows places
  | .not operand _ => operand.flows places
  | .call function arguments _ =>
    argumentsFlows places ((places.called? function).getD []) arguments
  | .invoke _ client function arguments _ =>
    argumentsFlows places ((places.invoked? client function).getD []) arguments
  | .put tunnel value _ => ⟨places.tunnel? tunnel, value.type, false⟩ :: value.flows places
  | .remotePut _ client tunnel value _ =>
    ⟨places.remoteTunnel? client tunnel, value.type, false⟩ :: value.flows places
  | .reveal body _ _ => body.flows places

/-- An argument beyond the parameters has no place. -/
def argumentsFlows (places : Places) : List Ty → List Expr → List Flow
  | _, [] => []
  | parameters, argument :: arguments =>
    ⟨parameters.head?, argument.type, true⟩ ::
      (argument.flows places ++ argumentsFlows places parameters.tail arguments)

end

open Typing

mutual

/-- The declared types after a statement. A loop variable is declared within its loop only. -/
def Stmt.declared (known : Known Ty) : Stmt → Known Ty
  | .declaration name type _ _ => known.add name type
  | .assign _ _ _ | .expression _ _ | .display _ _ | .returns _ _ _ => known
  | .ifThen _ body _ | .whileLoop _ body _ => body.declared known
  | .ifElse _ body otherwise _ => otherwise.declared (body.declared known)
  | .forEach name _ _ body _ => (body.declared (known.add name .client)).drop name
  | .block body _ => allDeclared known body

def allDeclared (known : Known Ty) : List Stmt → Known Ty
  | [] => known
  | first :: rest => allDeclared (first.declared known) rest

end

end Typed

open Typing Typed

/-- A value that goes to a variable, with what flows within it. -/
def assignFlows (places : Places) (known : Known Ty) (target : String) (value : Typed.Expr) :
    List Flow :=
  ⟨known target, value.type, false⟩ :: value.flows places

mutual

/-- The flows of a statement where the variables in `known` are declared, in a function that returns `result`. -/
def stmtFlows (places : Places) (result : Ty) (known : Known Ty) : Stmt → Typed.Stmt → List Flow
  | .declaration _ none _, .declaration _ _ none _ => []
  | .declaration _ (some initial) _, .declaration name type (some value) _ =>
    assignFlows places (known.add name type) initial.target.name value
  | .assign _ _, .assign target value _ => assignFlows places known target value
  | .expression _ _, .expression value _ | .display _ _, .display value _ => value.flows places
  | .ifThen _ body _, .ifThen condition typedBody _
  | .whileLoop _ body _, .whileLoop condition typedBody _ =>
    condition.flows places ++ stmtFlows places result known body typedBody
  | .ifElse _ body otherwise _, .ifElse condition typedBody typedOtherwise _ =>
    condition.flows places ++ stmtFlows places result known body typedBody ++
      stmtFlows places result (typedBody.declared known) otherwise typedOtherwise
  | .forEach _ _ body _, .forEach name _ _ typedBody _ =>
    stmtFlows places result (known.add name .client) body typedBody
  | .returns _ _, .returns value _ _ =>
    ⟨some result, returnedType value, false⟩ :: value.elim [] (Typed.Expr.flows places)
  | .block body _, .block typedBody _ => stmtsFlows places result known body typedBody
  | _, _ => [.astray]

def stmtsFlows (places : Places) (result : Ty) (known : Known Ty) :
    List Stmt → List Typed.Stmt → List Flow
  | [], [] => []
  | first :: rest, typedFirst :: typedRest =>
    stmtFlows places result known first typedFirst ++
      stmtsFlows places result (typedFirst.declared known) rest typedRest
  | _, _ => [.astray]

end

/-- Parameters are the first declared variables of a function. -/
def functionFlows (places : Places) (function : Function) (typed : Typed.Function) : List Flow :=
  let parameters := typed.parameters.foldl (fun known parameter =>
    known.add parameter.name parameter.type) .nothing
  stmtsFlows places typed.returnType parameters function.body typed.body

/-- Each function with its typed counterpart. -/
def functionsFlows (places : Places) : List Function → List Typed.Function → List Flow
  | [], [] => []
  | function :: rest, typed :: typedRest =>
    functionFlows places function typed ++ functionsFlows places rest typedRest
  | _, _ => [.astray]

def clientsFlows : List Client → List Typed.Client → List Flow
  | [], [] => []
  | client :: rest, typed :: typedRest =>
    functionsFlows ⟨typed.tunnels, typed.functions, []⟩ client.functions typed.functions ++
      clientsFlows rest typedRest
  | _, _ => [.astray]

/-- All flows of a typed program, together with the program that it was checked from. -/
def Program.flows (program : Program) (typed : Typed.Program) : List Flow :=
  clientsFlows program.clients typed.clients ++
    functionsFlows ⟨[], typed.server.functions, typed.clients⟩ program.server.functions
      typed.server.functions

/-! The types that a program declares. -/

mutual

def Stmt.declaredTypes : Stmt → List Ty
  | .declaration binder _ _ => [binder.type]
  | .assign _ _ | .expression _ _ | .display _ _ | .returns _ _ => []
  | .ifThen _ body _ | .whileLoop _ body _ => body.declaredTypes
  | .ifElse _ body otherwise _ => body.declaredTypes ++ otherwise.declaredTypes
  | .forEach binder _ body _ => binder.type :: body.declaredTypes
  | .block body _ => allDeclaredTypes body

def allDeclaredTypes : List Stmt → List Ty
  | [] => []
  | first :: rest => first.declaredTypes ++ allDeclaredTypes rest

end

def Function.declaredTypes (function : Function) : List Ty :=
  function.returnType :: (function.parameters.map Binder.type ++ allDeclaredTypes function.body)

def Client.declaredTypes (client : Client) : List Ty :=
  client.tunnels.map (fun tunnel => tunnel.binder.type) ++
    client.functions.flatMap Function.declaredTypes

def Program.declaredTypes (program : Program) : List Ty :=
  program.clients.flatMap Client.declaredTypes ++
    program.server.functions.flatMap Function.declaredTypes

end Multiparty
