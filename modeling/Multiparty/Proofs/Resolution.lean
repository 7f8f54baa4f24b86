import Mathlib.Data.List.Basic
import Multiparty.Proofs.Counterparts
import Multiparty.Proofs.ProgramChecks

/-! What names in an accepted program refer to. A call is of a function that stands no later in its own part, and
whatever the server asks of a client is declared by the client that the loop around it visits. -/

namespace Multiparty
namespace Typed

/-- As many arguments as parameters, and the type that is returned. -/
def Function.Answers (callee : Function) (arguments : List Expr) (mark : Mark) : Prop :=
  arguments.length = callee.parameters.length ∧ mark.type = callee.returnType

def function? (name : String) (functions : List Function) : Option Function :=
  functions.find? fun function => function.name = name

def tunnel? (name : String) (tunnels : List Tunnel) : Option Tunnel :=
  tunnels.find? fun tunnel => tunnel.name = name

/-- Exactly one loop around the place has the variable `target`, and it visits clients of the kind `client`. -/
def Place.Visits (place : Place) (target client : String) : Prop :=
  ∃ loop, place.loops.filter (fun loop => loop.name = target) = [loop] ∧ loop.client = client

/-- What an expression refers to is there and is what the expression takes it for. `visible` are the functions of
its part up to the one that it stands in. -/
def Occurrence.Resolved (program : Program) (party : Party) (visible : List Function) (site : Occurrence) :
    Prop :=
  match site.expr with
  | .call called arguments mark =>
    ∃ callee, function? called visible = some callee ∧ callee.Answers arguments mark
  | .invoke target client called arguments mark => party.isServer ∧ site.place.Visits target client ∧
    ∃ owner callee, program.client? client = some owner ∧
      function? called owner.functions = some callee ∧ callee.Answers arguments mark
  | .put tunnel value _ => party.isServer = false ∧ ∃ carrier,
    tunnel? tunnel party.tunnels = some carrier ∧ value.type = carrier.type
  | .read tunnel _ mark => party.isServer = false ∧ ∃ carrier,
    tunnel? tunnel party.tunnels = some carrier ∧ mark.type = carrier.type
  | .remotePut _ _ _ _ _ => False
  | .remoteRead target client tunnel _ mark => party.isServer ∧ site.place.Visits target client ∧
    ∃ owner carrier, program.client? client = some owner ∧
      tunnel? tunnel owner.tunnels = some carrier ∧ mark.type = carrier.type
  | .reveal _ _ _ => party.isServer
  | .int _ _ | .bool _ _ | .string _ _ | .symbol _ _ | .binary _ _ _ _ | .not _ _ | .readInt _ => True

/-- A loop is in the server, and visits clients of the kind that its group is made of. -/
def Stmt.Resolved (party : Party) (stmt : Stmt) : Prop :=
  ∀ name group client body span, stmt = .forEach name group client body span → party.isServer ∧
    ∃ members, party.groups.find? (fun other => other.name = group) = some members ∧
      members.client = client

/-- A function of that name calls another one of its part. -/
def Calls (functions : List Function) (caller called : String) : Prop :=
  ∃ function ∈ functions, function.name = caller ∧ ∃ site ∈ function.occurrences, ∃ arguments mark,
    site.expr = .call called arguments mark

/-- Names are unambiguous, all that they refer to is there, and a call leads back to its function only if the
function calls itself. -/
structure Party.Resolved (program : Program) (party : Party) : Prop where
  functions : (party.functions.map Function.name).Nodup
  members : party.members.Nodup
  statements : ∀ function ∈ party.functions, ∀ statement ∈ function.statements,
    statement.2.Resolved party
  occurrences : ∀ before function after, party.functions = before ++ function :: after →
    ∀ site ∈ function.occurrences, site.Resolved program party (before ++ [function])
  cycles : ∀ caller called, Relation.TransGen (Calls party.functions) caller called →
    Relation.TransGen (Calls party.functions) called caller → caller = called

theorem Party.isServer_setting (program : Program) (party : Party) (before : List Function)
    (function : Function) : (party.setting program before function).isServer = party.isServer := by
  cases party <;> rfl

theorem function?_of_signature {name : String} {functions : List Function} {signature : Signature}
    (found : Typing.find? name (functions.map Function.signature) = some signature) :
    ∃ callee, function? name functions = some callee ∧ callee.signature = signature := by
  rw [Typing.find?, List.find?_map] at found
  exact Option.map_eq_some_iff.mp found

theorem tunnel?_of_entry {name : String} {type : Ty} {tunnels : List Tunnel}
    (found : (tunnels.map Tunnel.entry).lookup name = some type) :
    ∃ carrier, tunnel? name tunnels = some carrier ∧ type = carrier.type := by
  rw [lookup_entry, Option.map_eq_some_iff] at found
  obtain ⟨carrier, first, same⟩ := found
  exact ⟨carrier, first, same.symm⟩

theorem client?_of_interface {program : Program} {name : String} {client : Interface}
    (known : program.interface? name = some client) : ∃ owner,
      program.client? client.name = some owner ∧ owner.interface = client ∧ client.name = name := by
  obtain ⟨owner, found, rfl⟩ := Option.map_eq_some_iff.mp known
  have named : owner.interface.name = name := by
    rw [Program.client?] at found
    simpa [Client.interface] using List.find?_some found
  exact ⟨owner, by rw [named, found], rfl, named⟩

end Typed

/-- Names up to `name` have no later positions in a list without duplicates. -/
theorem idxOf_le_of_mem_prefix {before after : List String} {name other : String}
    (distinct : (before ++ name :: after).Nodup) (among : other ∈ before ++ [name]) :
    (before ++ name :: after).idxOf other ≤ (before ++ name :: after).idxOf name := by
  rw [List.nodup_middle, List.nodup_cons] at distinct
  have last : name ∉ before := fun earlier => distinct.1 (List.mem_append_left _ earlier)
  have position : (before ++ name :: after).idxOf name = before.length := by
    rw [List.idxOf_append_of_notMem last, List.idxOf_cons_self, Nat.add_zero]
  have bound := List.idxOf_lt_length_of_mem among
  rw [List.length_append, List.length_singleton] at bound
  rw [position, List.append_cons, List.idxOf_append_of_mem among]
  exact Nat.le_of_lt_succ bound

namespace Typing
open Typed (Party Occurrence)

theorem ArgumentsDerive.answers {setting : Setting} {loops : Known Interface} {context : Known Ty}
    {callee : Typed.Function} {signature : Signature} (same : callee.signature = signature)
    {arguments : List Expr} {typed : List Typed.Expr}
    (derive : ArgumentsDerive setting loops context signature.parameters arguments typed) (span : Span) :
    callee.Answers typed ⟨signature.returnType, span⟩ := by
  subst same
  exact ⟨by rw [derive.typed_length_eq, Typed.Function.signature, List.length_map], rfl⟩

section
variable {program : Typed.Program} {party : Party} {before : List Typed.Function}
  {function : Typed.Function}

theorem tunnel?_resolved {name : String} {type : Ty}
    (found : (party.setting program before function).tunnel? name = some type) :
    ∃ carrier, Typed.tunnel? name party.tunnels = some carrier ∧ type = carrier.type := by
  cases party with
  | client part => exact Typed.tunnel?_of_entry found
  | server part => cases found

variable
  (declared : ∀ group ∈ party.groups, (program.interface? group.client).isSome)
include declared

theorem group?_resolved {name : String} {client : Interface}
    (found : (party.setting program before function).group? name = some client) :
    ∃ members, party.groups.find? (fun other => other.name = name) = some members ∧
      program.interface? members.client = some client := by
  cases party with
  | client part => cases found
  | server part =>
    have keyed := Typed.lookup_keyed Typed.Group.name declared name
    exact Option.bind_eq_some_iff.mp (keyed.symm.trans found)

/-- A loop variable stands for one client, which the program has as the server sees it. -/
theorem Sees.visits {loops : Known Interface} {known : Known Ty} {place : Typed.Place}
    (sees : Sees (party.setting program before function) loops known place) {name : String}
    {client : Interface} (bound : loops name = some client) :
    place.Visits name client.name ∧
      ∃ owner, program.client? client.name = some owner ∧ owner.interface = client := by
  obtain ⟨loop, only, visited, grouped⟩ := sees.loop_eq bound
  obtain ⟨members, -, made⟩ := group?_resolved declared grouped
  obtain ⟨owner, found, same, -⟩ := Typed.client?_of_interface made
  exact ⟨⟨loop, only, visited⟩, owner, found, same⟩

theorem ExprPlaced.resolved {site : Occurrence}
    (placed : ExprPlaced (party.setting program before function) site) :
    site.Resolved program party (before ++ [function]) := by
  obtain ⟨place, opened, expr⟩ := site
  obtain ⟨loops, known, sees, context, source, -, derives⟩ := placed
  have side := (party.isServer_setting program before function).symm
  cases derives with
  | int | bool | string | symbol | binary | not | readInt => trivial
  | call found derive =>
    obtain ⟨callee, found, same⟩ := Typed.function?_of_signature found
    exact ⟨callee, found, derive.answers same _⟩
  | invoke server bound found derive =>
    obtain ⟨visits, owner, present, rfl⟩ := sees.visits declared bound
    obtain ⟨callee, found, same⟩ := Typed.function?_of_signature found
    exact ⟨side.trans server, visits, owner, callee, present, found, derive.answers same _⟩
  | put client carried | read client carried => exact ⟨side.trans client, tunnel?_resolved carried⟩
  | remoteRead server bound carried =>
    obtain ⟨visits, owner, present, rfl⟩ := sees.visits declared bound
    obtain ⟨carrier, found, same⟩ := Typed.tunnel?_of_entry carried
    exact ⟨side.trans server, visits, owner, carrier, present, found, same⟩
  | reveal server => exact side.trans server

theorem StmtPlaced.resolved {options : Options} {statement : Typed.Place × Typed.Stmt}
    (placed : StmtPlaced options (party.setting program before function) statement) :
    statement.2.Resolved party := by
  obtain ⟨place, stmt⟩ := statement
  obtain ⟨loops, known, source, after, -, derives⟩ := placed
  have side := (party.isServer_setting program before function).symm
  rintro name group client body span rfl
  cases derives with
  | forEach server _ found _ _ =>
    obtain ⟨members, first, made⟩ := group?_resolved declared found
    obtain ⟨-, -, -, named⟩ := Typed.client?_of_interface made
    exact ⟨side.trans server, members, first, named.symm⟩

end

section
variable {options : Options} {program : Program} {typed : Typed.Program}
  (derives : ProgramDerives options program typed) {party : Party} (member : party ∈ typed.parties)
include derives member

theorem ProgramDerives.groups_declared :
    ∀ group ∈ party.groups, (typed.interface? group.client).isSome := by
  obtain ⟨client, -, rfl⟩ | rfl := Typed.Program.mem_parties.mp member
  · exact List.forall_mem_nil _
  · intro group among
    obtain ⟨source, -, _, derived⟩ := derives.server.groups.counterpart among
    rw [derives.interface?_eq, derived.result]
    exact derived.declared

theorem ProgramDerives.functions_nodup : (party.functions.map Typed.Function.name).Nodup := by
  obtain ⟨client, within, rfl⟩ | rfl := Typed.Program.mem_parties.mp member
  · obtain ⟨source, -, _, derived⟩ := derives.clients.counterpart within
    exact function_names_nodup derived.functions
  · exact function_names_nodup derives.server.functions

theorem ProgramDerives.members_nodup : party.members.Nodup := by
  obtain ⟨client, within, rfl⟩ | rfl := Typed.Program.mem_parties.mp member
  · obtain ⟨source, -, _, derived⟩ := derives.clients.counterpart within
    have names := tunnel_names_nodup derived.tunnels
    rwa [← List.append_nil (client.tunnels.map _)] at names
  · exact group_names_nodup derives.server.groups

theorem ProgramDerives.occurrences_resolved {before after : List Typed.Function}
    {function : Typed.Function} (whole : party.functions = before ++ function :: after) :
    ∀ site ∈ function.occurrences, site.Resolved typed party (before ++ [function]) := fun site among =>
  ((derives.placed member whole).2 site among).resolved (derives.groups_declared member)

/-- A called function stands no later than its caller. -/
theorem ProgramDerives.calls_earlier {caller called : String}
    (calls : Typed.Calls party.functions caller called) :
    called ∈ party.functions.map Typed.Function.name ∧
      (party.functions.map Typed.Function.name).idxOf called ≤
        (party.functions.map Typed.Function.name).idxOf caller := by
  obtain ⟨function, within, rfl, ⟨place, opened, expr⟩, among, arguments, mark, rfl⟩ := calls
  obtain ⟨before, after, whole⟩ := List.append_of_mem within
  obtain ⟨callee, found, -⟩ := derives.occurrences_resolved member whole _ among
  rw [Typed.function?] at found
  have named : callee.name = called := by simpa using List.find?_some found
  have earlier : called ∈ before.map Typed.Function.name ++ [function.name] := by
    have among := List.mem_map_of_mem (f := Typed.Function.name) (List.mem_of_find?_eq_some found)
    rwa [named, List.map_append, List.map_singleton] at among
  have names : party.functions.map Typed.Function.name =
      before.map Typed.Function.name ++ function.name :: after.map Typed.Function.name := by
    rw [whole, List.map_append, List.map_cons]
  have distinct := derives.functions_nodup member
  rw [names] at distinct ⊢
  refine ⟨?_, idxOf_le_of_mem_prefix distinct earlier⟩
  rw [List.append_cons]
  exact List.mem_append_left _ earlier

theorem ProgramDerives.calls_earlier_transitive {caller called : String}
    (calls : Relation.TransGen (Typed.Calls party.functions) caller called) :
    called ∈ party.functions.map Typed.Function.name ∧
      (party.functions.map Typed.Function.name).idxOf called ≤
        (party.functions.map Typed.Function.name).idxOf caller := by
  induction calls with
  | single calls => exact derives.calls_earlier member calls
  | tail _ calls ih =>
    obtain ⟨declared, earlier⟩ := derives.calls_earlier member calls
    exact ⟨declared, Nat.le_trans earlier ih.2⟩

theorem ProgramDerives.cycles {caller called : String}
    (calls : Relation.TransGen (Typed.Calls party.functions) caller called)
    (back : Relation.TransGen (Typed.Calls party.functions) called caller) : caller = called := by
  -- Neither function stands later than the other, and a position has one name only.
  obtain ⟨-, earlier⟩ := derives.calls_earlier_transitive member calls
  obtain ⟨declared, later⟩ := derives.calls_earlier_transitive member back
  exact (List.idxOf_inj declared).mp (Nat.le_antisymm later earlier)

theorem ProgramDerives.resolved : party.Resolved typed where
  functions := derives.functions_nodup member
  members := derives.members_nodup member
  statements := by
    intro function within statement among
    obtain ⟨before, after, whole⟩ := List.append_of_mem within
    exact ((derives.placed member whole).1 statement among).resolved (derives.groups_declared member)
  occurrences := fun _ _ _ => derives.occurrences_resolved member
  cycles := fun _ _ => derives.cycles member

end

/-- In an accepted program all that a function refers to is there, in its own part or in a client that a loop around
the place visits, and it is what the function takes it for. -/
theorem resolved_of_checkProgram {options : Options} {program : Program} {typed : Typed.Program}
    (accepted : checkProgram options program = .ok typed) :
    (typed.clients.map Typed.Client.name).Nodup ∧ ∀ party ∈ typed.parties, party.Resolved typed := by
  have derives := derives_of_checkProgram accepted
  exact ⟨derives.client_names_nodup, fun party member => derives.resolved member⟩

/-- The server visits clients in two loops, one in the other. It calls a function of its own for the argument of a
call to a client, which calls itself. -/
def polling : Program :=
  let identifier (name : String) : Identifier := ⟨name, .nowhere⟩
  let binder (type : Ty) (name : String) : Binder := ⟨type, identifier name, .nowhere⟩
  let call (name : String) (arguments : List Expr) : Expr :=
    .call (identifier name) arguments .nowhere .nowhere
  let ask (target name : String) (arguments : List Expr) : Stmt :=
    .expression (.invoke (identifier target) (identifier name) arguments .nowhere .nowhere) .nowhere
  let take (target tunnel : String) : Stmt :=
    .display (.remoteRead (identifier target) (identifier tunnel) .take .nowhere .nowhere) .nowhere
  let visit (member group : String) (body : List Stmt) : Stmt :=
    .forEach (binder .client member) (identifier group) (.block body .nowhere) .nowhere
  let vote : Function := ⟨.void, identifier "vote", [binder .int "weight"],
    [.expression (call "vote" [.symbol "weight" .nowhere]) .nowhere], .nowhere⟩
  let unit : Function := ⟨.int, identifier "unit", [], [.returns (some (.int 1 .nowhere)) .nowhere], .nowhere⟩
  let poll : Function := ⟨.void, identifier "poll", [],
    [visit "judge" "judges" [visit "voter" "voters" [ask "voter" "vote" [call "unit" []],
      take "judge" "verdicts"]]], .nowhere⟩
  { clients := [⟨identifier "Voter", [], [vote], .nowhere⟩,
      ⟨identifier "Judge", [⟨binder .bool "verdicts", .nowhere⟩], [], .nowhere⟩]
    server := ⟨identifier "Chair", [⟨identifier "Voter", identifier "voters", .nowhere⟩,
      ⟨identifier "Judge", identifier "judges", .nowhere⟩], [unit, poll], .nowhere⟩
    span := .nowhere }

theorem resolved_polling : ∃ typed, checkProgram ⟨false⟩ polling = .ok typed ∧
    (typed.server.functions.flatMap Typed.Function.occurrences).map
        (fun site => (site.place.loops.map fun loop => (loop.name, loop.client), site.expr.type)) =
      [([], .int), ([("voter", "Voter"), ("judge", "Judge")], .void),
        ([("voter", "Voter"), ("judge", "Judge")], .int), ([("voter", "Voter"), ("judge", "Judge")], .bool)] ∧
    (typed.clients.map Typed.Client.name).Nodup ∧ ∀ party ∈ typed.parties, party.Resolved typed := by
  refine ⟨_, rfl, rfl, ?_⟩
  exact resolved_of_checkProgram (show checkProgram ⟨false⟩ polling = .ok _ from rfl)

end Typing
end Multiparty
