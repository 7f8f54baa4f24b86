import Multiparty.Diagnostic.Basic
import Multiparty.Typing.Environment

/-! Checks: functions on the environment that succeed or stop at a violation. What a loop or an `open` changes
for the time of an inner check is changed back however that check ends. -/

namespace Multiparty

def Checking (α : Type) : Type :=
  Environment → Except Diagnostic α × Environment

namespace Checking
variable {α β : Type}

instance : Monad Checking where
  pure value := fun environment => (.ok value, environment)
  bind check next := fun environment =>
    match check environment with
    | (.ok value, after) => next value after
    | (.error diagnostic, after) => (.error diagnostic, after)

def fail (diagnostic : Diagnostic) : Checking α :=
  fun environment => (.error diagnostic, environment)

def violation (violated : Violation) (position : Position) : Checking α :=
  fail (.violation violated position)

def observe (view : Environment → α) : Checking α :=
  fun environment => (.ok (view environment), environment)

def change (update : Environment → Environment) : Checking Unit :=
  fun environment => (.ok (), update environment)

/-- Runs `check`, then `restore`, whether or not the check succeeded. -/
def restoring (restore : Environment → Environment) (check : Checking α) : Checking α :=
  fun environment =>
    let (result, after) := check environment
    (result, restore after)

def ofExcept (result : Except Diagnostic α) : Checking α :=
  fun environment => (result, environment)

/-- Checks one element after the other and stops at the first violation. -/
def each (check : α → Checking β) : List α → Checking (List β)
  | [] => return []
  | first :: rest => do
    let checked ← check first
    let others ← each check rest
    return checked :: others

end Checking

namespace Typing
open Checking

def unregisteredPart : Part → Diagnostic
  | .client index => .violation (.undefinedPart ("client #" ++ toString index)) .nowhere
  | .server => .violation (.undefinedPart "server") .nowhere

def unregisteredFunction (scope : Scope) : Diagnostic :=
  .violation (.undefinedFunction scope.function scope.part.describe) .nowhere

def part (part : Part) : Checking PartScope := do
  match ← observe (·.part? part) with
  | some found => return found
  | none => fail (unregisteredPart part)

def function (scope : Scope) : Checking FunctionScope := do
  match ← observe (·.function? scope) with
  | some found => return found
  | none => fail (unregisteredFunction scope)

def setVariable (scope : Scope) (name : String) (type : Ty) (environment : Environment) :
    Environment :=
  environment.updateFunction scope fun function =>
    { function with symbols := function.symbols.set name type }

/-- Adds a variable to the function. Its name must be new there, and no tunnel or group of the part. -/
def declare (scope : Scope) (binder : Binder) : Checking Unit := do
  let name := binder.name.name
  let place := binder.name.span.start
  let owner ← part scope.part
  if (owner.tunnel? name).isSome then violation (.shadowsTunnel name) place
  else if (owner.group? name).isSome then violation (.shadowsGroup name) place
  else do
    let current ← function scope
    if current.symbols.contains name then violation (.duplicateVariable name) place
    else change (setVariable scope name binder.type)

/-- The type of a name in an expression. Groups and tunnels of the part come before symbols. -/
def resolve (scope : Scope) (name : String) (place : Position) : Checking Ty := do
  let owner ← part scope.part
  match owner.group? name, owner.tunnel? name with
  | some _, _ => return .group
  | none, some carried => return .tunnel carried
  | none, none => do
    let current ← function scope
    match current.symbols.find? name with
    | some type => return type
    | none => violation (.undefinedVariable name) place

/-- The client that a loop variable stands for. -/
def boundClient (scope : Scope) (target : Identifier) : Checking Nat := do
  let current ← function scope
  match current.bindings.find? target.name with
  | some client => return client
  | none => violation (.unboundClient target.name) target.span.start

def bindVariable (scope : Scope) (name : String) (client : Nat) (environment : Environment) :
    Environment :=
  environment.updateFunction scope fun function =>
    { function with bindings := function.bindings.set name client }

def unbindVariable (scope : Scope) (name : String) (environment : Environment) : Environment :=
  environment.updateFunction scope fun function =>
    { function with
      symbols := function.symbols.erase name
      bindings := function.bindings.erase name }

/-- Runs `check` with the loop variable declared and standing for `client`. -/
def withLoopBinding {α : Type} (scope : Scope) (binder : Binder) (client : Nat)
    (check : Checking α) : Checking α := do
  declare scope binder
  change (bindVariable scope binder.name.name client)
  restoring (unbindVariable scope binder.name.name) check

/-- Makes a secret variable public and gives its secret type. -/
def openVariable (scope : Scope) (opened : Identifier) : Checking Ty := do
  let current ← function scope
  match current.symbols.find? opened.name with
  | none => violation (.undefinedVariable opened.name) opened.span.start
  | some type =>
    if type.isSecret then do
      change (setVariable scope opened.name type.publicOf)
      return type
    else violation (.notSecret opened.name type) opened.span.start

/-- Runs `check` with the named variables made public. A name that is listed twice is no longer secret the
second time. -/
def withOpened {α : Type} (scope : Scope) : List Identifier → Checking α → Checking α
  | [], check => check
  | opened :: rest, check => do
    let secret ← openVariable scope opened
    restoring (setVariable scope opened.name secret) (withOpened scope rest check)

end Typing
end Multiparty
