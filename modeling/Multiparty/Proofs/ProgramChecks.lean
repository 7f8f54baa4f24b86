import Multiparty.Proofs.FunctionChecks
import Multiparty.Proofs.TypingTotality

/-! Checking parts and whole programs follows the rules: each client finds the clients before it, the server
finds all of them, and what checking gives is what derives. -/

namespace Multiparty.Typing
open Checking Environment

/-- The clients registered so far are these, in their order, and show what the rules say of them. -/
structure Enrolled (environment : Environment) (clients : List Client) : Prop where
  count : environment.clients.length = clients.length
  offers : ∀ index client, clients[index]? = some client →
    Offers environment index client.interface

theorem Enrolled.names_eq {environment : Environment} {clients : List Client}
    (enrolled : Enrolled environment clients) :
    environment.clients.map PartScope.name = clients.map fun client => client.name.name := by
  apply List.ext_getElem?
  intro index
  rw [List.getElem?_map, List.getElem?_map]
  cases member : clients[index]? with
  | none =>
    rw [List.getElem?_eq_none_iff, ← enrolled.count] at member
    simp [member]
  | some client =>
    obtain ⟨part, found, name, -⟩ := (enrolled.offers index client member).registered
    rw [part?] at found
    simp [found, name, Client.interface]

/-- A client is found by its name as the rules find it. -/
theorem Enrolled.findClient? {environment : Environment} {clients : List Client}
    (enrolled : Enrolled environment clients) (name : String) :
    Option.Rel (Offers environment) (environment.findClient? name) (interface? clients name) := by
  have place : environment.findClient? name =
      clients.findIdx? fun client => client.name.name = name := by
    have mapped := congrArg (List.findIdx? fun other => other == name) enrolled.names_eq
    rw [List.findIdx?_map, List.findIdx?_map] at mapped
    exact mapped
  rw [place, interface?, List.find?_eq_bind_findIdx?_getElem?]
  cases found : clients.findIdx? fun client => client.name.name = name with
  | none => exact .none
  | some index =>
    obtain ⟨bound, -⟩ := List.findIdx?_eq_some_iff_getElem.mp found
    rw [Option.bind_some, List.getElem?_eq_getElem bound]
    exact .some (enrolled.offers index _ (List.getElem?_eq_getElem bound))

/-- The tunnels as checking keeps them. -/
def tunnelTypes (tunnels : List Tunnel) : Names Ty :=
  tunnels.map Tunnel.entry

theorem find?_tunnelTypes (tunnels : List Tunnel) (name : String) :
    (tunnelTypes tunnels).find? name = (tunnels.map Tunnel.entry).lookup name :=
  Names.find?_eq_lookup _ name

section
variable {owner : String} {before tunnels : List Tunnel}

theorem contains_tunnelTypes (before : List Tunnel) (name : String) :
    (tunnelTypes before).contains name = ((before.map Tunnel.entry).lookup name).isSome := by
  rw [Names.contains, find?_tunnelTypes]

theorem set_tunnelTypes {tunnel : Tunnel}
    (fresh : (before.map Tunnel.entry).lookup tunnel.binder.name.name = none) :
    (tunnelTypes before).set tunnel.binder.name.name tunnel.binder.type =
      tunnelTypes (before ++ [tunnel]) := by
  rw [← find?_tunnelTypes] at fresh
  rw [Names.set_of_find?_eq_none _ fresh, tunnelTypes, tunnelTypes, List.map_append]
  rfl

theorem declareTunnels_run {typed : List Typed.Tunnel}
    (derive : InTurn TunnelDerives before tunnels typed) :
    declareTunnels owner (tunnelTypes before) tunnels = .ok (tunnelTypes (before ++ tunnels)) := by
  induction tunnels generalizing before typed with
  | nil => rw [declareTunnels, List.append_nil]
  | cons tunnel rest ih =>
    cases derive with
    | cons first others =>
      rw [declareTunnels, contains_tunnelTypes, first.fresh, if_neg (by simp), if_pos first.carries,
        set_tunnelTypes first.fresh, ih others, List.append_assoc]
      rfl

theorem declareTunnels_break {violated : Violation} {place : Position}
    (broken : BreaksInTurn TunnelDerives (TunnelBreaks owner) before tunnels violated place) :
    declareTunnels owner (tunnelTypes before) tunnels = .error (.violation violated place) := by
  induction tunnels generalizing before with
  | nil => cases broken
  | cons tunnel rest ih =>
    rw [declareTunnels, contains_tunnelTypes]
    cases broken with
    | here broken =>
      cases broken with
      | duplicate taken => rw [if_pos taken]
      | unsupported fresh unfit => rw [fresh, if_neg (by simp), if_neg (by simp [unfit])]
    | later first broken =>
      rw [first.fresh, if_neg (by simp), if_pos first.carries, set_tunnelTypes first.fresh]
      exact ih broken

end

theorem groupEntries_append_singleton {clients : List Client} {before : List Group} {group : Group}
    {client : Interface} (declared : interface? clients group.client.name = some client) :
    groupEntries clients (before ++ [group]) =
      groupEntries clients before ++ [(group.name.name, client)] := by
  simp [groupEntries, declared]

theorem nothing_listed {environment : Environment} {clients : List Client} (name : String) :
    Option.Rel (Offers environment) ((Names.empty : Names Nat).find? name)
      ((groupEntries clients []).lookup name) :=
  .none

section
variable {environment : Environment} {clients : List Client} {before groups : List Group}
  {known : Names Nat}
  (listed : ∀ name, Option.Rel (Offers environment) (known.find? name)
    ((groupEntries clients before).lookup name))
include listed

/-- A group that is new is known after it by the client it is made of. -/
theorem list_group {group : Group} {index : Nat} {client : Interface}
    (declared : interface? clients group.client.name = some client)
    (fresh : (groupEntries clients before).lookup group.name.name = none)
    (offers : Offers environment index client) (name : String) :
    Option.Rel (Offers environment) ((known.set group.name.name index).find? name)
      ((groupEntries clients (before ++ [group])).lookup name) := by
  rw [Names.find?_set, groupEntries_append_singleton declared, List.lookup_append]
  by_cases same : group.name.name = name
  · subst same
    simp only [if_true, fresh, Option.none_or, List.lookup_cons_self]
    exact .some offers
  · have different : (name == group.name.name) = false := by simpa using Ne.symm same
    simp only [same, if_false, List.lookup_cons, List.lookup_nil, different, Option.or_none]
    exact listed name

theorem contains_group {name : String} :
    known.contains name = ((groupEntries clients before).lookup name).isSome := by
  rw [Names.contains]
  exact isSome_eq_of_rel (listed name)

variable (enrolled : Enrolled environment clients)
include enrolled

theorem declareGroups_run (owner : String) {typed : List Typed.Group}
    (derive : InTurn (GroupDerives clients) before groups typed) :
    ∃ after, declareGroups environment owner known groups = .ok after ∧
      ∀ name, Option.Rel (Offers environment) (after.find? name)
        ((groupEntries clients (before ++ groups)).lookup name) := by
  induction groups generalizing before known typed with
  | nil => exact ⟨known, rfl, by simpa using listed⟩
  | cons group rest ih =>
    cases derive with
    | cons first others =>
      obtain ⟨client, declared⟩ := Option.isSome_iff_exists.mp first.declared
      have found := enrolled.findClient? group.client.name
      rw [declared] at found
      rw [declareGroups]
      generalize environment.findClient? group.client.name = place at found ⊢
      cases found with
      | some offers =>
        obtain ⟨after, ran, reached⟩ := ih (list_group listed declared first.fresh offers) others
        refine ⟨after, ?_, by simpa using reached⟩
        simp only [contains_group listed, first.fresh, Option.isSome_none]
        exact ran

theorem declareGroups_break {owner : String} {violated : Violation} {place : Position}
    (broken : BreaksInTurn (GroupDerives clients) (GroupBreaks owner clients) before groups violated
      place) :
    declareGroups environment owner known groups = .error (.violation violated place) := by
  induction groups generalizing before known with
  | nil => cases broken
  | cons group rest ih =>
    have found := enrolled.findClient? group.client.name
    rw [declareGroups]
    cases broken with
    | here broken =>
      cases broken with
      | undeclared missing =>
        rw [missing] at found
        rw [eq_none_of_rel found]
      | duplicate declared taken =>
        obtain ⟨client, declared⟩ := Option.isSome_iff_exists.mp declared
        rw [declared] at found
        generalize environment.findClient? group.client.name = index at found ⊢
        cases found with
        | some offers =>
          simp only [contains_group listed, taken, if_true]
    | later first broken =>
      obtain ⟨client, declared⟩ := Option.isSome_iff_exists.mp first.declared
      rw [declared] at found
      generalize environment.findClient? group.client.name = index at found ⊢
      cases found with
      | some offers =>
        simp only [contains_group listed, first.fresh, Option.isSome_none]
        exact ih (list_group listed declared first.fresh offers) broken

end

section
variable {environment : Environment}

theorem ofExcept_run {α : Type} {result : Except Diagnostic α} :
    Checking.ofExcept result environment = (result, environment) := rfl

theorem addClient_enrolled {clients : List Client} (enrolled : Enrolled environment clients)
    (part : PartScope) (index : Nat) (client : Client) (member : clients[index]? = some client) :
    Offers (addClient part environment) index client.interface := by
  apply (enrolled.offers index client member).ofSurface
  have bound : index < environment.clients.length := by
    rw [enrolled.count]
    exact (List.getElem?_eq_some_iff.mp member).1
  have kept : (addClient part environment).part? (.client index) =
      environment.part? (.client index) := List.getElem?_append_left bound
  rw [kept]
  exact (SameShape.refl environment).parts _

/-- A client that was just added stands with its tunnels and without functions. -/
theorem addClient_stands (environment : Environment) (owner : String) (tunnels : List Tunnel) :
    Stands (addClient ⟨owner, .empty, .tunnels (tunnelTypes tunnels)⟩ environment)
      (.client environment.clients.length) owner (.tunnels (tunnels.map Tunnel.entry)) [] := by
  refine ⟨fun current => ⟨⟨owner, .empty, .tunnels (tunnelTypes tunnels)⟩, ?_, rfl, ?_,
    find?_tunnelTypes tunnels, fun _ => .none, ⟨fun _ => rfl⟩⟩⟩
  · exact List.getElem?_concat_length
  · simp [Setting.isServer]

theorem Stands.offers {index : Nat} {client : Client}
    (stands : Stands environment (.client index) client.name.name
      (.tunnels (client.tunnels.map Tunnel.entry)) client.functions) :
    Offers environment index client.interface := by
  obtain ⟨found, houses⟩ := stands.houses ⟨client.name.name, [], .void⟩
  exact ⟨found, houses.found, houses.name, houses.tunnels, houses.functions⟩

/-- A client that is checked joins the clients before it. -/
theorem Enrolled.append_singleton {clients : List Client} {client : Client} {part : PartScope}
    {later : Environment} (enrolled : Enrolled environment clients)
    (elsewhere : SameElsewhere (.client environment.clients.length) (addClient part environment) later)
    (stands : Stands later (.client environment.clients.length) client.name.name
      (.tunnels (client.tunnels.map Tunnel.entry)) client.functions) :
    Enrolled later (clients ++ [client]) := by
  constructor
  · rw [← elsewhere.count, addClient, List.length_append, List.length_append, enrolled.count]
    rfl
  · intro index other member
    by_cases last : index = clients.length
    · subst last
      rw [List.getElem?_concat_length] at member
      cases member
      rw [← enrolled.count]
      exact stands.offers
    · have bound : index < clients.length := by
        have within := (List.getElem?_eq_some_iff.mp member).1
        rw [List.length_append, List.length_singleton] at within
        omega
      rw [List.getElem?_append_left bound] at member
      apply (addClient_enrolled enrolled part index other member).ofSurface
      apply elsewhere.parts
      rw [enrolled.count]
      simpa using last

/-- Checking a client of a new name whose tunnels are in order is checking its functions. -/
theorem checkClient_functions {options : Options} {client : Client} {tunnels : Names Ty}
    (unknown : environment.findClient? client.name.name = none)
    (declared : declareTunnels client.name.name .empty client.tunnels = .ok tunnels) :
    checkClient options client environment =
      (each (checkFunction options (.client environment.clients.length)) client.functions >>=
        fun functions => (return ⟨client.name.name, client.tunnels.map Tunnel.typed, functions,
          client.span⟩ : Checking Typed.Client))
        (addClient ⟨client.name.name, .empty, .tunnels tunnels⟩ environment) := by
  rw [checkClient, bind_ok (observe_run unknown), declared]
  simp only
  rw [bind_ok ofExcept_run]
  rfl

section
variable {options : Options} {before : List Client} {client : Client}
  (enrolled : Enrolled environment before)
include enrolled

theorem Enrolled.unknown (fresh : interface? before client.name.name = none) :
    environment.findClient? client.name.name = none := by
  have unknown := enrolled.findClient? client.name.name
  rw [fresh] at unknown
  exact eq_none_of_rel unknown

theorem checkClient_run {typed : Typed.Client}
    (derives : ClientDerives options before client typed) :
    ∃ later, checkClient options client environment = (.ok typed, later) ∧
      Enrolled later (before ++ [client]) := by
  have declared : declareTunnels client.name.name .empty client.tunnels =
      .ok (tunnelTypes client.tunnels) := declareTunnels_run derives.tunnels
  have stands := addClient_stands environment client.name.name client.tunnels
  obtain ⟨later, ran, elsewhere, reached⟩ := checkFunctions_run stands derives.functions
  refine ⟨later, ?_, enrolled.append_singleton elsewhere reached⟩
  have tunnels := derives.tunnels.eq_map fun _ _ _ derives => derives.result
  have result := derives.result
  obtain ⟨name, typedTunnels, functions, span⟩ := typed
  cases result
  cases tunnels
  rw [checkClient_functions (enrolled.unknown derives.fresh) declared, bind_ok ran]
  rfl

theorem checkClient_break {violated : Violation} {place : Position}
    (broken : ClientBreaks options before client violated place) :
    ∃ later, checkClient options client environment =
      (.error (.violation violated place), later) := by
  cases broken with
  | duplicate taken =>
    refine ⟨environment, ?_⟩
    obtain ⟨other, taken⟩ := Option.isSome_iff_exists.mp taken
    have known := enrolled.findClient? client.name.name
    rw [taken] at known
    obtain ⟨index, found⟩ : ∃ index, environment.findClient? client.name.name = some index := by
      generalize environment.findClient? client.name.name = found at known
      cases known with
      | some _ => exact ⟨_, rfl⟩
    rw [checkClient, bind_ok (observe_run found)]
    rfl
  | tunnels fresh broken =>
    refine ⟨environment, ?_⟩
    have declared : declareTunnels client.name.name .empty client.tunnels =
        .error (.violation violated place) := declareTunnels_break broken
    rw [checkClient, bind_ok (observe_run (enrolled.unknown fresh)), declared]
    simp only
    rw [bind_error ofExcept_run]
  | functions fresh derive broken =>
    have declared : declareTunnels client.name.name .empty client.tunnels =
        .ok (tunnelTypes client.tunnels) := declareTunnels_run derive
    have stands := addClient_stands environment client.name.name client.tunnels
    obtain ⟨later, ran⟩ := checkFunctions_break stands broken
    rw [checkClient_functions (enrolled.unknown fresh) declared]
    exact ⟨later, bind_error ran _⟩

end

theorem setServer_stands {clients : List Client} {owner : String} {groups : List Group}
    {known : Names Nat}
    (listed : ∀ name, Option.Rel (Offers environment) (known.find? name)
      ((groupEntries clients groups).lookup name)) :
    Stands (setServer ⟨owner, .empty, .groups known⟩ environment) .server owner
      (.groups (groupEntries clients groups)) [] := by
  refine ⟨fun current => ⟨⟨owner, .empty, .groups known⟩, rfl, rfl, ?_, fun _ => rfl, ?_,
    ⟨fun _ => rfl⟩⟩⟩
  · simp [Setting.isServer]
  · intro name
    exact rel_imp (fun _ _ offers => offers.ofSurface ((SameShape.refl environment).parts _))
      (listed name)

theorem checkServer_functions {options : Options} {server : Server} {groups : Names Nat}
    (declared : declareGroups environment server.name.name .empty server.groups = .ok groups) :
    checkServer options server environment =
      (each (checkFunction options .server) server.functions >>= fun functions =>
        (return ⟨server.name.name, server.groups.map Group.typed, functions, server.span⟩ :
          Checking Typed.Server))
        (setServer ⟨server.name.name, .empty, .groups groups⟩ environment) := by
  rw [checkServer, bind_ok (observe_run rfl), id_eq, declared, bind_ok ofExcept_run]
  rfl

section
variable {options : Options} {clients : List Client} {server : Server}
  (enrolled : Enrolled environment clients)
include enrolled

theorem checkServer_run {typed : Typed.Server}
    (derives : ServerDerives options clients server typed) :
    ∃ later, checkServer options server environment = (.ok typed, later) := by
  obtain ⟨known, declared, listed⟩ := declareGroups_run nothing_listed enrolled
    server.name.name derives.groups
  obtain ⟨later, ran, -⟩ := checkFunctions_run (setServer_stands listed) derives.functions
  refine ⟨later, ?_⟩
  have groups := derives.groups.eq_map fun _ _ _ derives => derives.result
  have result := derives.result
  obtain ⟨name, typedGroups, functions, span⟩ := typed
  cases result
  cases groups
  rw [checkServer_functions declared, bind_ok ran]
  rfl

theorem checkServer_break {violated : Violation} {place : Position}
    (broken : ServerBreaks options clients server violated place) :
    ∃ later, checkServer options server environment =
      (.error (.violation violated place), later) := by
  cases broken with
  | groups broken =>
    refine ⟨environment, ?_⟩
    have declared := declareGroups_break nothing_listed enrolled broken
    rw [checkServer, bind_ok (observe_run rfl), id_eq, declared, bind_error ofExcept_run]
  | functions derive broken =>
    obtain ⟨known, declared, listed⟩ := declareGroups_run nothing_listed enrolled
      server.name.name derive
    obtain ⟨later, ran⟩ := checkFunctions_break (setServer_stands listed) broken
    rw [checkServer_functions declared]
    exact ⟨later, bind_error ran _⟩

end

end

section
variable {options : Options} {program : Program}

theorem empty_enrolled : Enrolled .empty [] :=
  ⟨rfl, nofun⟩

theorem checkClients_run {typed : List Typed.Client}
    (derive : InTurn (ClientDerives options) [] program.clients typed) :
    ∃ later, each (checkClient options) program.clients .empty = (.ok typed, later) ∧
      Enrolled later program.clients := by
  rw [← List.map_id typed]
  apply each_run id (fun before later => Enrolled later before) _ empty_enrolled derive
  intro before client typed inner enrolled derives
  exact checkClient_run enrolled derives

/-- A program is accepted with what derives from it. -/
theorem checkProgram_run {typed : Typed.Program} (derives : ProgramDerives options program typed) :
    checkProgram options program = .ok typed := by
  obtain ⟨middle, ranClients, enrolled⟩ := checkClients_run derives.clients
  obtain ⟨later, ranServer⟩ := checkServer_run enrolled derives.server
  have result := derives.result
  obtain ⟨clients, server, span⟩ := typed
  cases result
  rw [checkProgram, checkParts, bind_ok ranClients, bind_ok ranServer]
  rfl

/-- A program is refused for the first rule that it breaks. -/
theorem checkProgram_break {violated : Violation} {place : Position}
    (broken : ProgramBreaks options program violated place) :
    checkProgram options program = .error (.violation violated place) := by
  cases broken with
  | clients broken =>
    obtain ⟨later, ran⟩ := each_break id (fun before later => Enrolled later before)
      (fun before client typed inner enrolled derives => checkClient_run enrolled derives)
      (fun before client inner enrolled broken => checkClient_break enrolled broken)
      empty_enrolled broken
    rw [checkProgram, checkParts, bind_error ran]
  | server derive broken =>
    obtain ⟨middle, ranClients, enrolled⟩ := checkClients_run derive
    obtain ⟨later, ran⟩ := checkServer_break enrolled broken
    rw [checkProgram, checkParts, bind_ok ranClients, bind_error ran]

theorem derives_of_checkProgram {typed : Typed.Program}
    (accepted : checkProgram options program = .ok typed) : ProgramDerives options program typed := by
  rcases ProgramDerives.or_breaks options program with ⟨derived, derives⟩ | ⟨_, _, broken⟩
  · rw [checkProgram_run derives] at accepted
    cases accepted
    exact derives
  · rw [checkProgram_break broken] at accepted
    cases accepted

theorem breaks_of_checkProgram {diagnostic : Diagnostic}
    (refused : checkProgram options program = .error diagnostic) :
    ∃ violated place, diagnostic = .violation violated place ∧
      ProgramBreaks options program violated place := by
  rcases ProgramDerives.or_breaks options program with ⟨derived, derives⟩ | ⟨violated, place, broken⟩
  · rw [checkProgram_run derives] at refused
    cases refused
  · rw [checkProgram_break broken] at refused
    cases refused
    exact ⟨violated, place, rfl, broken⟩

end

end Multiparty.Typing
