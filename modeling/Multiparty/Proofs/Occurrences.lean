import Multiparty.Tree.Typed

/-! Where the expressions and statements of a typed program stand: which variables are declared before them, and
which loops and `open`s are around them. This is read from the typed tree alone. -/

namespace Multiparty.Typed

structure Loop where
  name : String
  group : String
  client : String
deriving DecidableEq

/-- A place in a function, with the variables declared before it and the loops around it. The innermost loop comes
first. -/
structure Place where
  declared : List (String × Ty)
  loops : List Loop
deriving DecidableEq

namespace Place

/-- Each variable that is known at the place, once for each time that it is bound. -/
def binders (place : Place) : List (String × Ty) :=
  place.declared ++ place.loops.map fun loop => (loop.name, .client)

def declaring (added : List (String × Ty)) (place : Place) : Place :=
  { place with declared := place.declared ++ added }

def looping (loop : Loop) (place : Place) : Place :=
  { place with loops := loop :: place.loops }

theorem declaring_nil (place : Place) : place.declaring [] = place := by
  rw [declaring, List.append_nil]

theorem declaring_declaring (place : Place) (first second : List (String × Ty)) :
    (place.declaring first).declaring second = place.declaring (first ++ second) := by
  simp only [declaring, List.append_assoc]

end Place

mutual

/-- Declared variables stay known in the rest of their function, wherever in it they are declared. -/
def Stmt.declarations : Stmt → List (String × Ty)
  | .declaration name type _ _ => [(name, type)]
  | .assign _ _ _ | .expression _ _ | .display _ _ | .returns _ _ _ => []
  | .ifThen _ body _ | .whileLoop _ body _ | .forEach _ _ _ body _ => body.declarations
  | .ifElse _ body otherwise _ => body.declarations ++ otherwise.declarations
  | .block body _ => allDeclarations body

def allDeclarations : List Stmt → List (String × Ty)
  | [] => []
  | first :: rest => first.declarations ++ allDeclarations rest

end

mutual

/-- The statements inside a statement that stands at `place`. -/
def Stmt.within (place : Place) : Stmt → List (Place × Stmt)
  | .declaration _ _ _ _ | .assign _ _ _ | .expression _ _ | .display _ _ | .returns _ _ _ => []
  | .ifThen _ body _ | .whileLoop _ body _ => (place, body) :: body.within place
  | .ifElse _ body otherwise _ =>
    let later := place.declaring body.declarations
    ((place, body) :: body.within place) ++ (later, otherwise) :: otherwise.within later
  | .forEach name group client body _ =>
    let inside := place.looping ⟨name, group, client⟩
    (inside, body) :: body.within inside
  | .block body _ => allWithin place body

/-- The statements of a list that starts at `place`, and those inside them. -/
def allWithin (place : Place) : List Stmt → List (Place × Stmt)
  | [] => []
  | first :: rest =>
    ((place, first) :: first.within place) ++ allWithin (place.declaring first.declarations) rest

end

/-- The expressions that belong to a statement itself. An initial value already sees the variable that it is for. -/
def Stmt.values (place : Place) : Stmt → List (Place × Expr)
  | .declaration name type (some value) _ => [(place.declaring [(name, type)], value)]
  | .assign _ value _ | .expression value _ | .display value _ | .returns (some value) _ _ =>
    [(place, value)]
  | .ifThen condition _ _ | .ifElse condition _ _ _ | .whileLoop condition _ _ => [(place, condition)]
  | .declaration _ _ none _ | .returns none _ _ | .forEach _ _ _ _ _ | .block _ _ => []

mutual

/-- The expressions inside an expression, each with the names that the `open`s around it list. -/
def Expr.within (opened : List String) : Expr → List (List String × Expr)
  | .int _ _ | .bool _ _ | .string _ _ | .symbol _ _ | .read _ _ _ | .remoteRead _ _ _ _ _
  | .readInt _ => []
  | .binary _ left right _ =>
    ((opened, left) :: left.within opened) ++ (opened, right) :: right.within opened
  | .not operand _ => (opened, operand) :: operand.within opened
  | .call _ arguments _ | .invoke _ _ _ arguments _ => argumentsWithin opened arguments
  | .put _ value _ | .remotePut _ _ _ value _ => (opened, value) :: value.within opened
  | .reveal body names _ => (names ++ opened, body) :: body.within (names ++ opened)

def argumentsWithin (opened : List String) : List Expr → List (List String × Expr)
  | [] => []
  | argument :: arguments =>
    ((opened, argument) :: argument.within opened) ++ argumentsWithin opened arguments

end

/-- An expression where it stands in a function. `opened` has the names that the `open`s around it list. -/
structure Occurrence where
  place : Place
  opened : List String
  expr : Expr

/-- A value with all expressions inside it. -/
def valueOccurrences (place : Place) (value : Expr) : List Occurrence :=
  (([], value) :: value.within []).map fun inner => ⟨place, inner.1, inner.2⟩

namespace Function

/-- Parameters are declared before anything else. -/
def place (function : Function) : Place :=
  ⟨function.parameters.map fun parameter => (parameter.name, parameter.type), []⟩

def statements (function : Function) : List (Place × Stmt) :=
  allWithin function.place function.body

def occurrences (function : Function) : List Occurrence :=
  function.statements.flatMap fun statement =>
    (statement.2.values statement.1).flatMap fun value => valueOccurrences value.1 value.2

end Function

/-- A client, or the server. -/
inductive Party
  | client (part : Client)
  | server (part : Server)

namespace Party

def isServer : Party → Bool
  | .client _ => false
  | .server _ => true

def functions : Party → List Function
  | .client part => part.functions
  | .server part => part.functions

def tunnels : Party → List Tunnel
  | .client part => part.tunnels
  | .server _ => []

def groups : Party → List Group
  | .client _ => []
  | .server part => part.groups

/-- The names that stand for no variable. -/
def members (party : Party) : List String :=
  party.tunnels.map Tunnel.name ++ party.groups.map Group.name

end Party

def Program.parties (program : Program) : List Party :=
  program.clients.map .client ++ [.server program.server]

theorem Program.mem_parties {program : Program} {party : Party} : party ∈ program.parties ↔
    (∃ client ∈ program.clients, party = .client client) ∨ party = .server program.server := by
  simp only [parties, List.mem_append, List.mem_map, List.mem_singleton, eq_comm]

end Multiparty.Typed
