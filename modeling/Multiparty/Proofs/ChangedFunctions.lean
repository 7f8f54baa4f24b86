import Multiparty.Proofs.BodyReplacement

/-! Programs in which one function gives way to another of the same signature. Nothing else in the program can tell the
two apart, so what is known of the functions alone carries over to parts and programs. -/

namespace Multiparty
namespace Program

def functionsOf (part : Part) (program : Program) : List Function :=
  match part with
  | .client owner => (program.clients[owner]?).elim [] Client.functions
  | .server => program.server.functions

/-- The names of the tunnels of a client, or of the groups of the server. -/
def membersOf (part : Part) (program : Program) : List String :=
  match part with
  | .client owner => (program.clients[owner]?).elim [] fun client =>
    client.tunnels.map fun tunnel => tunnel.binder.name.name
  | .server => program.server.groups.map fun group => group.name.name

/-- Changes the function that has `index` functions of its part before it. -/
def modifyFunction (part : Part) (index : Nat) (change : Function → Function) (program : Program) : Program :=
  match part with
  | .client owner => { program with
      clients := program.clients.modify owner (·.mapFunctions (·.modify index change)) }
  | .server => { program with server := program.server.mapFunctions (·.modify index change) }

end Program

def Typed.Program.modifyFunction (part : Part) (index : Nat) (change : Function → Function) (program : Program) :
    Program :=
  match part with
  | .client owner => { program with
      clients := program.clients.modify owner (·.mapFunctions (·.modify index change)) }
  | .server => { program with server := program.server.mapFunctions (·.modify index change) }

theorem modify_modify_eq_self {α : Type} {items : List α} {index : Nat} {item : α} {first second : α → α}
    (found : items[index]? = some item) (undone : second (first item) = item) :
    (items.modify index first).modify index second = items := by
  rw [List.modify_modify_eq]
  apply modify_eq_self
  intro other same
  rw [found] at same
  cases same
  exact undone

namespace Program
variable (part : Part) (index : Nat) (program : Program)

theorem functionsOf_modifyFunction (change : Function → Function) :
    (program.modifyFunction part index change).functionsOf part = (program.functionsOf part).modify index change := by
  cases part with
  | server => rfl
  | client owner =>
    rw [functionsOf, functionsOf, modifyFunction, List.getElem?_modify_eq]
    cases program.clients[owner]? with
    | none => exact (List.modify_nil _ _).symm
    | some client => rfl

theorem membersOf_modifyFunction (change : Function → Function) :
    (program.modifyFunction part index change).membersOf part = program.membersOf part := by
  cases part with
  | server => rfl
  | client owner =>
    rw [membersOf, membersOf, modifyFunction, List.getElem?_modify_eq]
    cases program.clients[owner]? <;> rfl

theorem exists_client {owner : Nat} {function : Function}
    (found : (program.functionsOf (.client owner))[index]? = some function) :
    ∃ client, program.clients[owner]? = some client ∧ client.functions[index]? = some function := by
  rw [functionsOf] at found
  cases present : program.clients[owner]? with
  | none =>
    rw [present] at found
    cases found
  | some client =>
    rw [present] at found
    exact ⟨client, rfl, found⟩

/-- A change that a second one undoes leaves the program as it was. -/
theorem modifyFunction_back {first second : Function → Function} {function : Function}
    (found : (program.functionsOf part)[index]? = some function) (undone : second (first function) = function) :
    (program.modifyFunction part index first).modifyFunction part index second = program := by
  cases part with
  | server =>
    have kept : (program.server.functions.modify index first).modify index second = program.server.functions :=
      modify_modify_eq_self found undone
    simp only [modifyFunction, Server.mapFunctions, kept]
  | client owner =>
    obtain ⟨client, present, found⟩ := program.exists_client index found
    have kept : (client.mapFunctions (·.modify index first)).mapFunctions (·.modify index second) = client :=
      congrArg (fun functions => client.mapFunctions fun _ => functions) (modify_modify_eq_self found undone)
    rw [modifyFunction, modifyFunction, modify_modify_eq_self present kept]

end Program

theorem map_modify_eq {α β : Type} {change : α → α} {view : α → β} (same : ∀ item, view (change item) = view item)
    (items : List α) (index : Nat) : (items.modify index change).map view = items.map view := by
  apply List.ext_getElem?
  intro place
  rw [List.getElem?_map, List.getElem?_map, List.getElem?_modify]
  cases items[place]? with
  | none => rfl
  | some item =>
    simp only [Option.map_eq_map, Option.map_some]
    split
    · rw [same]
    · rfl

namespace Typing

def Holdings.names : Holdings → List String
  | .tunnels types => types.map Prod.fst
  | .groups clients => clients.map Prod.fst

section
variable {options : Options} {change : Function → Function} {changeTyped : Typed.Function → Typed.Function}
  {index : Nat} {function : Function} (same : ∀ function, (change function).signature = function.signature)
include same

theorem functions_modify {owner : String} {holdings : Holdings} {functions : List Function}
    {typed : List Typed.Function} (found : functions[index]? = some function)
    (each : ∀ before typed, FunctionDerives options owner holdings before function typed →
      FunctionDerives options owner holdings before (change function) (changeTyped typed))
    (turn : InTurn (FunctionDerives options owner holdings) [] functions typed) :
    InTurn (FunctionDerives options owner holdings) [] (functions.modify index change)
      (typed.modify index changeTyped) := by
  obtain ⟨earlier, later, rfl, rfl⟩ := exists_split found
  obtain ⟨first, one, rest, rfl, length, before, derives, after⟩ := turn.divide
  rw [modify_split, ← length, modify_split]
  apply before.join (each _ _ derives)
  apply after.of_view Function.signature
  · exact fun _ _ _ _ seen derives => derives.of_signatures seen
  · simp only [List.map_append, List.map_singleton, same]

theorem interface_modify (client : Client) :
    (client.mapFunctions (·.modify index change)).interface = client.interface :=
  congrArg (Interface.mk _ _) (map_modify_eq same client.functions index)

theorem ClientDerives.modify {before : List Client} {client : Client} {typed : Typed.Client}
    (found : client.functions[index]? = some function)
    (each : ∀ before typed,
      FunctionDerives options client.name.name (.tunnels (client.tunnels.map Tunnel.entry)) before function typed →
      FunctionDerives options client.name.name (.tunnels (client.tunnels.map Tunnel.entry)) before (change function)
        (changeTyped typed))
    (derives : ClientDerives options before client typed) :
    ClientDerives options before (client.mapFunctions (·.modify index change))
      (typed.mapFunctions (·.modify index changeTyped)) :=
  ⟨derives.fresh, derives.tunnels, functions_modify same found each derives.functions, derives.result⟩

theorem ServerDerives.modify {clients : List Client} {server : Server} {typed : Typed.Server}
    (found : server.functions[index]? = some function)
    (each : ∀ before typed,
      FunctionDerives options server.name.name (.groups (groupEntries clients server.groups)) before function typed →
      FunctionDerives options server.name.name (.groups (groupEntries clients server.groups)) before (change function)
        (changeTyped typed))
    (derives : ServerDerives options clients server typed) :
    ServerDerives options clients (server.mapFunctions (·.modify index change))
      (typed.mapFunctions (·.modify index changeTyped)) :=
  ⟨derives.groups, functions_modify same found each derives.functions, derives.result⟩

omit same in
/-- Only groups of declared clients can be named. -/
theorem groupEntries_names (clients : List Client) (groups : List Group) :
    (Holdings.groups (groupEntries clients groups)).names ⊆ groups.map fun group => group.name.name := by
  intro name among
  obtain ⟨entry, listed, rfl⟩ := List.mem_map.mp among
  obtain ⟨group, declared, made⟩ := List.mem_filterMap.mp listed
  obtain ⟨client, -, rfl⟩ := Option.map_eq_some_iff.mp made
  exact List.mem_map_of_mem declared

/-- If what derives for a function derives for the changed function, wherever the tunnels and groups are among those
of its part, then so it is for programs. -/
theorem ProgramDerives.modifyFunction {program : Program} {typed : Typed.Program} {part : Part}
    (found : (program.functionsOf part)[index]? = some function)
    (each : ∀ owner holdings before typed, holdings.names ⊆ program.membersOf part →
      FunctionDerives options owner holdings before function typed →
      FunctionDerives options owner holdings before (change function) (changeTyped typed))
    (derives : ProgramDerives options program typed) :
    ProgramDerives options (program.modifyFunction part index change)
      (typed.modifyFunction part index changeTyped) := by
  cases part with
  | server =>
    refine ⟨derives.clients, derives.server.modify same found fun before typed => each _ _ before typed ?_,
      derives.result⟩
    exact groupEntries_names program.clients program.server.groups
  | client owner =>
    obtain ⟨client, present, declared⟩ := program.exists_client index found
    obtain ⟨turn, server, result⟩ := derives
    have members : program.membersOf (.client owner) = client.tunnels.map fun tunnel => tunnel.binder.name.name := by
      rw [Program.membersOf, present, Option.elim_some]
    obtain ⟨before, after, whole, rfl⟩ := exists_split present
    rw [whole] at turn server
    obtain ⟨first, one, rest, typedClients, length, turn, derives, laterTurn⟩ := turn.divide
    have seen : ∀ others : List Client, (before ++ client.mapFunctions (·.modify index change) :: others).map
        Client.interface = (before ++ client :: others).map Client.interface := by
      intro others
      rw [List.map_append, List.map_append, List.map_cons, List.map_cons, interface_modify same]
    have changed := modify_split first rest one (·.mapFunctions (·.modify index changeTyped))
    rw [length, ← typedClients] at changed
    rw [Program.modifyFunction, Typed.Program.modifyFunction, whole, modify_split, changed]
    refine ⟨turn.join ?_ (laterTurn.of_view Client.interface ?_ (seen [])), server.of_interfaces (seen after), result⟩
    · apply derives.modify same declared
      intro before typed
      apply each
      rw [members, Holdings.names, List.map_map]
      exact fun _ among => among
    · exact fun _ _ _ _ seen derives => derives.of_interfaces seen

end

end Typing
end Multiparty
