import Multiparty.Proofs.ProgramChecks

/-! Functions see each other through their signatures only. Another body for one function of an accepted program
either gives the same typed program around the new body, or is refused for something in that body, whatever
functions come after it. -/

namespace Multiparty

def Function.withBody (body : List Stmt) (function : Function) : Function :=
  { function with body := body }

def Client.mapFunctions (change : List Function → List Function) (client : Client) : Client :=
  { client with functions := change client.functions }

def Server.mapFunctions (change : List Function → List Function) (server : Server) : Server :=
  { server with functions := change server.functions }

namespace Program

/-- Another body for the function that has `index` functions of its part before it. -/
def withBody (part : Part) (index : Nat) (body : List Stmt) (program : Program) : Program :=
  match part with
  | .client owner => { program with
      clients := program.clients.modify owner (·.mapFunctions (·.modify index (·.withBody body))) }
  | .server => { program with
      server := program.server.mapFunctions (·.modify index (·.withBody body)) }

/-- Without the functions after that one in its part, and without those of all later parts. -/
def upTo (part : Part) (index : Nat) (program : Program) : Program :=
  match part with
  | .client owner => { program with
      clients := program.clients.mapIdx fun place client =>
        if place < owner then client
        else client.mapFunctions (List.take (if place = owner then index + 1 else 0))
      server := program.server.mapFunctions fun _ => [] }
  | .server => { program with server := program.server.mapFunctions (List.take (index + 1)) }

end Program

namespace Typed

def Function.withBody (body : List Stmt) (function : Function) : Function :=
  { function with body := body }

def Client.mapFunctions (change : List Function → List Function) (client : Client) : Client :=
  { client with functions := change client.functions }

def Server.mapFunctions (change : List Function → List Function) (server : Server) : Server :=
  { server with functions := change server.functions }

def Program.withBody (part : Part) (index : Nat) (body : List Stmt) (program : Program) : Program :=
  match part with
  | .client owner => { program with
      clients := program.clients.modify owner (·.mapFunctions (·.modify index (·.withBody body))) }
  | .server => { program with
      server := program.server.mapFunctions (·.modify index (·.withBody body)) }

end Typed

/-- The item at an index, with the items on either side. -/
theorem exists_split {α : Type} {items : List α} {index : Nat} {item : α}
    (found : items[index]? = some item) :
    ∃ earlier later, items = earlier ++ item :: later ∧ earlier.length = index := by
  obtain ⟨bound, rfl⟩ := List.getElem?_eq_some_iff.mp found
  refine ⟨items.take index, items.drop (index + 1), ?_, List.length_take_of_le (Nat.le_of_lt bound)⟩
  rw [List.getElem_cons_drop, List.take_append_drop]

theorem modify_split {α : Type} (earlier later : List α) (item : α) (change : α → α) :
    (earlier ++ item :: later).modify earlier.length change = earlier ++ change item :: later := by
  induction earlier with
  | nil => rfl
  | cons front earlier ih => exact congrArg (front :: ·) ih

theorem modify_eq_self {α : Type} {items : List α} {index : Nat} {change : α → α}
    (fixed : ∀ item, items[index]? = some item → change item = item) : items.modify index change = items := by
  apply List.ext_getElem?
  intro place
  rw [List.getElem?_modify]
  split
  next same =>
    subst same
    cases found : items[index]? with
    | none => rfl
    | some item => exact congrArg some (fixed item found)
  next => cases items[place]? <;> rfl

/-- The functions of a part up to the one that is split off, and no others. -/
theorem take_split {α : Type} (earlier later : List α) (item : α) :
    (earlier ++ item :: later).take (earlier.length + 1) = earlier ++ [item] := by
  rw [List.take_length_add_append, List.take_succ_cons, List.take_zero]

theorem Typed.Program.exists_withBody_eq (typed : Typed.Program) (part : Part) (index : Nat) :
    ∃ body, typed.withBody part index body = typed := by
  have kept : ∀ functions : List Typed.Function,
      ∃ body, functions.modify index (·.withBody body) = functions := by
    intro functions
    refine ⟨((functions[index]?).map Typed.Function.body).getD [], modify_eq_self fun function found => ?_⟩
    rw [found]
    rfl
  cases part with
  | server =>
    obtain ⟨body, same⟩ := kept typed.server.functions
    exact ⟨body, by rw [withBody, Server.mapFunctions, same]⟩
  | client owner =>
    cases member : typed.clients[owner]? with
    | none =>
      refine ⟨[], ?_⟩
      rw [withBody, modify_eq_self]
      intro client found
      rw [member] at found
      cases found
    | some client =>
      obtain ⟨body, same⟩ := kept client.functions
      refine ⟨body, ?_⟩
      rw [withBody, modify_eq_self]
      intro other found
      rw [member] at found
      cases found
      rw [Client.mapFunctions, same]

namespace Typing

namespace InTurn
variable {α β γ : Type} {derives : List α → α → β → Prop} {before earlier later others : List α} {item : α}
  {typed first rest : List β} {one : β}

theorem divide (turn : InTurn derives before (earlier ++ item :: later) typed) :
    ∃ first one rest, typed = first ++ one :: rest ∧ first.length = earlier.length ∧
      InTurn derives before earlier first ∧ derives (before ++ earlier) item one ∧
      InTurn derives (before ++ earlier ++ [item]) later rest := by
  induction earlier generalizing before typed with
  | nil =>
    cases turn with
    | cons derived others =>
      refine ⟨[], _, _, rfl, rfl, .nil, ?_, ?_⟩
      · rwa [List.append_nil]
      · rwa [List.append_nil]
  | cons front earlier ih =>
    cases turn with
    | @cons _ _ _ head _ derived others =>
      obtain ⟨first, one, rest, rfl, same, turn, middle, after⟩ := ih others
      rw [← List.append_cons] at middle after
      exact ⟨head :: first, one, rest, rfl, congrArg Nat.succ same, .cons derived turn, middle, after⟩

theorem join (turn : InTurn derives before earlier first) (derived : derives (before ++ earlier) item one)
    (after : InTurn derives (before ++ earlier ++ [item]) later rest) :
    InTurn derives before (earlier ++ item :: later) (first ++ one :: rest) := by
  induction turn with
  | nil =>
    rw [List.append_nil] at derived after
    exact .cons derived after
  | @cons before front head _ _ derivedHead _ ih =>
    rw [List.append_cons before head front] at derived after
    exact .cons derivedHead (ih derived after)

/-- If only a view of the items before it matters to each item, they may be replaced by others with that view. -/
theorem of_view (view : α → γ)
    (unseen : ∀ before others item typed, others.map view = before.map view →
      derives before item typed → derives others item typed)
    (turn : InTurn derives before later typed) (same : others.map view = before.map view) :
    InTurn derives others later typed := by
  induction turn generalizing others with
  | nil => exact .nil
  | cons derived _ ih =>
    exact .cons (unseen _ _ _ _ same derived) (ih (by rw [List.map_append, List.map_append, same]))

theorem breaks {breaks : List α → α → Violation → Position → Prop} {violated : Violation}
    {place : Position} (turn : InTurn derives before earlier first)
    (broken : breaks (before ++ earlier) item violated place) :
    BreaksInTurn derives breaks before (earlier ++ item :: later) violated place := by
  induction turn with
  | nil =>
    rw [List.append_nil] at broken
    exact .here broken
  | cons head _ ih =>
    rw [List.append_cons] at broken
    exact .later head (ih broken)

end InTurn

section
variable {options : Options} {owner : String} {holdings : Holdings}

theorem FunctionDerives.of_signatures {before others : List Function} {function : Function}
    {typed : Typed.Function} (same : others.map Function.signature = before.map Function.signature)
    (derives : FunctionDerives options owner holdings before function typed) :
    FunctionDerives options owner holdings others function typed := by
  have setting : Setting.of owner holdings others function = Setting.of owner holdings before function := by
    simp only [Setting.of, List.map_append, same]
  obtain ⟨fresh, allowed, parameters, body, result⟩ := derives
  rw [← same] at fresh
  rw [← setting] at allowed parameters body
  exact ⟨fresh, allowed, parameters, body, result⟩

theorem signatures_withBody {earlier : List Function} (function : Function) (later : List Function)
    (body : List Stmt) : (earlier ++ function.withBody body :: later).map Function.signature =
      (earlier ++ function :: later).map Function.signature := by
  rw [List.map_append, List.map_append]
  rfl

theorem setting_withBody (before : List Function) (function : Function) (body : List Stmt) :
    Setting.of owner holdings before (function.withBody body) = .of owner holdings before function := by
  rw [Setting.of, Setting.of, signatures_withBody]
  rfl

/-- The rules for what stands around a body do not look at it. -/
theorem FunctionDerives.withBody_or_breaks {before : List Function} {function : Function}
    {typed : Typed.Function} (derives : FunctionDerives options owner holdings before function typed)
    (body : List Stmt) :
    Decided (fun other => FunctionDerives options owner holdings before (function.withBody body)
        (typed.withBody other))
      (FunctionBreaks options owner holdings before (function.withBody body)) := by
  rcases StmtsDerive.or_break options (.of owner holdings before function) .nothing
    (seeded function.parameters) body with ⟨⟨other, after⟩, derived⟩ | ⟨_, _, broken⟩
  · obtain ⟨fresh, allowed, parameters, -, result⟩ := derives
    rw [← setting_withBody before function body] at allowed parameters derived
    exact .inl ⟨other, fresh, allowed, parameters, ⟨after, derived⟩, result⟩
  · obtain ⟨fresh, allowed, parameters, -, -⟩ := derives
    rw [← setting_withBody before function body] at allowed parameters broken
    exact .inr ⟨_, _, .body fresh allowed parameters broken⟩

/-- Functions after the one with the new body still derive as before, and do not matter if it breaks a rule. -/
theorem functions_withBody_or_break {earlier later : List Function} {function : Function}
    {typed : List Typed.Function}
    (turn : InTurn (FunctionDerives options owner holdings) [] (earlier ++ function :: later) typed)
    (body : List Stmt) :
    Decided (fun other => InTurn (FunctionDerives options owner holdings) []
        (earlier ++ function.withBody body :: later) (typed.modify earlier.length (·.withBody other)))
      (fun violated place => ∀ rest, BreaksInTurn (FunctionDerives options owner holdings)
        (FunctionBreaks options owner holdings) [] (earlier ++ function.withBody body :: rest) violated
        place) := by
  obtain ⟨first, one, rest, rfl, same, before, derives, after⟩ := turn.divide
  rcases derives.withBody_or_breaks body with ⟨other, derived⟩ | ⟨violated, place, broken⟩
  · left
    refine ⟨other, ?_⟩
    have revised := modify_split first rest one (·.withBody other)
    rw [same] at revised
    simp only [revised]
    refine before.join derived (after.of_view Function.signature ?_ ?_)
    · exact fun _ _ _ _ same derives => derives.of_signatures same
    · exact signatures_withBody function [] body
  · exact .inr ⟨violated, place, fun rest => before.breaks broken⟩

end

theorem interface?_congr {clients others : List Client}
    (same : others.map Client.interface = clients.map Client.interface) :
    interface? others = interface? clients := by
  funext name
  rw [interface?_eq_find?, interface?_eq_find?, same]

section
variable {clients others : List Client} (unseen : interface? others = interface? clients)
include unseen

theorem groupEntries_congr : groupEntries others = groupEntries clients := by
  funext groups
  rw [groupEntries, groupEntries, unseen]

theorem groupDerives_congr : GroupDerives others = GroupDerives clients := by
  have entries := groupEntries_congr unseen
  funext before group typed
  refine propext ⟨fun derives => ?_, fun derives => ?_⟩
  · exact ⟨unseen ▸ derives.declared, entries ▸ derives.fresh, derives.result⟩
  · exact ⟨unseen ▸ derives.declared, entries ▸ derives.fresh, derives.result⟩

end

section
variable {options : Options} {body : List Stmt} {earlier later : List Function} {function : Function}

theorem ClientDerives.of_interfaces {before others : List Client} {client : Client}
    {typed : Typed.Client} (same : others.map Client.interface = before.map Client.interface)
    (derives : ClientDerives options before client typed) : ClientDerives options others client typed := by
  obtain ⟨fresh, tunnels, functions, result⟩ := derives
  rw [← interface?_congr same] at fresh
  exact ⟨fresh, tunnels, functions, result⟩

theorem ServerDerives.of_interfaces {clients others : List Client} {server : Server}
    {typed : Typed.Server} (same : others.map Client.interface = clients.map Client.interface)
    (derives : ServerDerives options clients server typed) :
    ServerDerives options others server typed := by
  have unseen := interface?_congr same
  obtain ⟨groups, functions, result⟩ := derives
  rw [← groupEntries_congr unseen] at functions
  rw [← groupDerives_congr unseen] at groups
  exact ⟨groups, functions, result⟩

theorem ClientDerives.withBody_or_breaks {before : List Client} {client : Client}
    {typed : Typed.Client} (derives : ClientDerives options before client typed)
    (declared : client.functions = earlier ++ function :: later) (body : List Stmt) :
    Decided (fun other => ClientDerives options before
        (client.mapFunctions fun _ => earlier ++ function.withBody body :: later)
        (typed.mapFunctions (·.modify earlier.length (·.withBody other))))
      (fun violated place => ∀ rest, ClientBreaks options before
        (client.mapFunctions fun _ => earlier ++ function.withBody body :: rest) violated place) := by
  obtain ⟨fresh, tunnels, functions, result⟩ := derives
  rw [declared] at functions
  rcases functions_withBody_or_break functions body with ⟨other, turn⟩ | ⟨violated, place, broken⟩
  · exact .inl ⟨other, fresh, tunnels, turn, result⟩
  · exact .inr ⟨violated, place, fun rest => .functions fresh tunnels (broken rest)⟩

theorem ServerDerives.withBody_or_breaks {clients : List Client} {server : Server}
    {typed : Typed.Server} (derives : ServerDerives options clients server typed)
    (declared : server.functions = earlier ++ function :: later) (body : List Stmt) :
    Decided (fun other => ServerDerives options clients
        (server.mapFunctions fun _ => earlier ++ function.withBody body :: later)
        (typed.mapFunctions (·.modify earlier.length (·.withBody other))))
      (fun violated place => ∀ rest, ServerBreaks options clients
        (server.mapFunctions fun _ => earlier ++ function.withBody body :: rest) violated place) := by
  obtain ⟨groups, functions, result⟩ := derives
  rw [declared] at functions
  rcases functions_withBody_or_break functions body with ⟨other, turn⟩ | ⟨violated, place, broken⟩
  · exact .inl ⟨other, groups, turn, result⟩
  · exact .inr ⟨violated, place, fun rest => .functions groups (broken rest)⟩

theorem interface_withBody {client : Client} (declared : client.functions = earlier ++ function :: later)
    (body : List Stmt) :
    (client.mapFunctions fun _ => earlier ++ function.withBody body :: later).interface =
      client.interface := by
  rw [Client.interface, Client.interface, declared, ← signatures_withBody function later body]
  rfl

/-- Clients and the server see that client as before, and if the new body breaks a rule then so it does whatever
functions and clients come after it. -/
theorem ProgramDerives.client_withBody {program : Program} {typed : Typed.Program} {before after : List Client}
    {client : Client} (derives : ProgramDerives options program typed)
    (clients : program.clients = before ++ client :: after)
    (declared : client.functions = earlier ++ function :: later) (body : List Stmt) :
    Decided (fun other => ProgramDerives options
        { program with clients := before ++
            (client.mapFunctions fun _ => earlier ++ function.withBody body :: later) :: after }
        (typed.withBody (.client before.length) earlier.length other))
      (fun violated place => ∀ rest others server, ProgramBreaks options
        { program with
          clients := before ++ (client.mapFunctions fun _ => earlier ++ function.withBody body :: rest) :: others
          server := server } violated place) := by
  obtain ⟨turn, server, result⟩ := derives
  rw [clients] at turn server
  obtain ⟨first, one, rest, typedClients, same, turn, derives, laterTurn⟩ := turn.divide
  rcases derives.withBody_or_breaks declared body with ⟨other, derived⟩ | ⟨violated, place, broken⟩
  · have seen : ∀ others : List Client, (before ++
        (client.mapFunctions fun _ => earlier ++ function.withBody body :: later) :: others).map
          Client.interface = (before ++ client :: others).map Client.interface := by
      intro others
      rw [List.map_append, List.map_append, List.map_cons, List.map_cons, interface_withBody declared]
    have revised := modify_split first rest one (·.mapFunctions (·.modify earlier.length (·.withBody other)))
    rw [same, ← typedClients] at revised
    refine .inl ⟨other, ?_, server.of_interfaces (seen after), result⟩
    simp only [Typed.Program.withBody, revised]
    refine turn.join derived (laterTurn.of_view Client.interface ?_ (seen []))
    exact fun _ _ _ _ same derives => derives.of_interfaces same
  · exact .inr ⟨violated, place, fun rest others server => .clients (turn.breaks (broken rest))⟩

theorem ProgramDerives.server_withBody {program : Program} {typed : Typed.Program}
    (derives : ProgramDerives options program typed)
    (declared : program.server.functions = earlier ++ function :: later) (body : List Stmt) :
    Decided (fun other => ProgramDerives options
        { program with server := program.server.mapFunctions fun _ =>
            earlier ++ function.withBody body :: later }
        (typed.withBody .server earlier.length other))
      (fun violated place => ∀ rest, ProgramBreaks options
        { program with server := program.server.mapFunctions fun _ =>
            earlier ++ function.withBody body :: rest } violated place) := by
  obtain ⟨turn, server, result⟩ := derives
  rcases server.withBody_or_breaks declared body with ⟨other, derived⟩ | ⟨violated, place, broken⟩
  · exact .inl ⟨other, turn, derived, result⟩
  · exact .inr ⟨violated, place, fun rest => .server turn (broken rest)⟩

end

section
variable {program : Program} {before after : List Client} {client : Client}
  {earlier later : List Function} {function : Function} (body : List Stmt)

theorem withBody_client (clients : program.clients = before ++ client :: after)
    (declared : client.functions = earlier ++ function :: later) :
    program.withBody (.client before.length) earlier.length body = { program with
      clients := before ++
        (client.mapFunctions fun _ => earlier ++ function.withBody body :: later) :: after } := by
  simp only [Program.withBody, clients, modify_split, Client.mapFunctions, declared]

theorem upTo_client : ∃ others server,
    { program with
      clients := before ++ (client.mapFunctions fun _ => earlier ++ function :: later) :: after }.upTo
        (.client before.length) earlier.length =
    { program with
      clients := before ++ (client.mapFunctions fun _ => earlier ++ [function]) :: others
      server := server } := by
  have kept : (before.mapIdx fun place client => if place < before.length then client
      else client.mapFunctions (List.take (if place = before.length then earlier.length + 1 else 0))) =
      before := by
    apply List.ext_getElem?
    intro place
    rw [List.getElem?_mapIdx]
    by_cases bound : place < before.length
    · simp only [bound, if_true, Option.map_id']
    · rw [List.getElem?_eq_none (Nat.le_of_not_lt bound)]
      rfl
  simp only [Program.upTo, List.mapIdx_append, kept, List.mapIdx_cons, Nat.zero_add, Nat.lt_irrefl,
    if_false, if_true]
  simp only [Client.mapFunctions, take_split]
  exact ⟨_, _, rfl⟩

theorem withBody_server (declared : program.server.functions = earlier ++ function :: later) :
    program.withBody .server earlier.length body = { program with
      server := program.server.mapFunctions fun _ => earlier ++ function.withBody body :: later } := by
  simp only [Program.withBody, Server.mapFunctions, declared, modify_split]

theorem upTo_server : { program with
      server := program.server.mapFunctions fun _ => earlier ++ function :: later }.upTo .server
        earlier.length =
    { program with server := program.server.mapFunctions fun _ => earlier ++ [function] } := by
  simp only [Program.upTo, Server.mapFunctions, take_split]

end

/-- Where a program is accepted, another body for one of its functions changes nothing else: the program is accepted
with that body checked in its place, or refused for what is also found when nothing is checked after it. -/
theorem checkProgram_withBody {options : Options} {program : Program} {typed : Typed.Program}
    (accepted : checkProgram options program = .ok typed) (part : Part) (index : Nat) (body : List Stmt) :
    (∃ other, checkProgram options (program.withBody part index body) =
        .ok (typed.withBody part index other)) ∨
      ∃ diagnostic, checkProgram options (program.withBody part index body) = .error diagnostic ∧
        checkProgram options ((program.withBody part index body).upTo part index) = .error diagnostic := by
  have derives := derives_of_checkProgram accepted
  -- An index without a function leaves the program as it is.
  have unchanged (same : program.withBody part index body = program) : ∃ other,
      checkProgram options (program.withBody part index body) = .ok (typed.withBody part index other) := by
    obtain ⟨other, kept⟩ := typed.exists_withBody_eq part index
    exact ⟨other, by rw [same, kept, accepted]⟩
  cases part with
  | server =>
    cases found : program.server.functions[index]? with
    | none =>
      refine .inl (unchanged ?_)
      rw [Program.withBody, Server.mapFunctions, modify_eq_self fun _ there => nomatch found ▸ there]
    | some function =>
      obtain ⟨earlier, later, declared, rfl⟩ := exists_split found
      rw [withBody_server body declared, upTo_server]
      rcases derives.server_withBody declared body with ⟨other, derived⟩ | ⟨violated, place, broken⟩
      · exact .inl ⟨other, checkProgram_run derived⟩
      · exact .inr ⟨.violation violated place, checkProgram_break (broken later), checkProgram_break (broken [])⟩
  | client owner =>
    cases member : program.clients[owner]? with
    | none =>
      refine .inl (unchanged ?_)
      rw [Program.withBody, modify_eq_self fun _ there => nomatch member ▸ there]
    | some client =>
      cases found : client.functions[index]? with
      | none =>
        refine .inl (unchanged ?_)
        rw [Program.withBody, modify_eq_self]
        intro other there
        cases member.symm.trans there
        rw [Client.mapFunctions, modify_eq_self fun _ there => nomatch found ▸ there]
      | some function =>
        obtain ⟨before, after, clients, rfl⟩ := exists_split member
        obtain ⟨earlier, later, declared, rfl⟩ := exists_split found
        obtain ⟨others, server, cut⟩ := @upTo_client program before after client earlier later
          (function.withBody body)
        rw [withBody_client body clients declared, cut]
        rcases derives.client_withBody clients declared body with ⟨other, derived⟩ | ⟨violated, place, broken⟩
        · exact .inl ⟨other, checkProgram_run derived⟩
        · exact .inr ⟨.violation violated place, checkProgram_break (broken later after program.server),
            checkProgram_break (broken [] others server)⟩

/-- Two functions of the server, the second of which calls the first, after a client that the server never visits. -/
def counting : Program :=
  let identifier (name : String) : Identifier := ⟨name, .nowhere⟩
  let returned (value : Expr) : List Stmt := [.returns (some value) .nowhere]
  let function (name : String) (body : List Stmt) : Function := ⟨.int, identifier name, [], body, .nowhere⟩
  { clients := [⟨identifier "Voter", [], [function "vote" (returned (.int 1 .nowhere))], .nowhere⟩]
    server := ⟨identifier "Chair", [],
      [function "total" (returned (.int 2 .nowhere)),
        function "double" (returned (.call (identifier "total") [] .nowhere .nowhere))], .nowhere⟩
    span := .nowhere }

/-- The first function of the server may not call the second, and this is found without looking at the second. -/
theorem checkProgram_withBody_counting :
    let forward : List Stmt :=
      [.returns (some (.call ⟨"double", .nowhere⟩ [] .nowhere .nowhere)) .nowhere]
    ∃ typed, checkProgram ⟨false⟩ counting = .ok typed ∧
      (checkProgram ⟨false⟩ (counting.withBody .server 0 forward)).isOk = false ∧
      ((∃ other, checkProgram ⟨false⟩ (counting.withBody .server 0 forward) =
          .ok (typed.withBody .server 0 other)) ∨
        ∃ diagnostic, checkProgram ⟨false⟩ (counting.withBody .server 0 forward) = .error diagnostic ∧
          checkProgram ⟨false⟩ ((counting.withBody .server 0 forward).upTo .server 0) =
            .error diagnostic) := by
  refine ⟨_, rfl, rfl, ?_⟩
  exact checkProgram_withBody (show checkProgram ⟨false⟩ counting = .ok _ from rfl) .server 0 _

end Typing
end Multiparty
