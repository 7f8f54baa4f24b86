import Multiparty.Proofs.OccurrenceTyping

/-! A typed program has all that its functions were checked against: a part's functions, tunnels and groups stand in
it as the rules saw them, in the same order and with names of their own. -/

namespace Multiparty

def Program.functions (program : Program) : List Function :=
  program.clients.flatMap Client.functions ++ program.server.functions

namespace Typed

def Function.signature (function : Function) : Signature :=
  ⟨function.name, function.parameters.map Parameter.type, function.returnType⟩

def Tunnel.entry (tunnel : Tunnel) : String × Ty :=
  (tunnel.name, tunnel.type)

def Client.interface (client : Client) : Interface :=
  ⟨client.name, client.tunnels.map Tunnel.entry, client.functions.map Function.signature⟩

def Program.client? (name : String) (program : Program) : Option Client :=
  program.clients.find? fun client => client.name = name

def Program.interface? (name : String) (program : Program) : Option Interface :=
  (program.client? name).map Client.interface

def Party.name : Party → String
  | .client part => part.name
  | .server part => part.name

def Party.holdings (program : Program) : Party → Typing.Holdings
  | .client part => .tunnels (part.tunnels.map Tunnel.entry)
  | .server part => .groups (part.groups.filterMap fun group =>
      (program.interface? group.client).map fun client => (group.name, client))

/-- What a function of a part can refer to, where `before` are the functions before it. -/
def Party.setting (program : Program) (party : Party) (before : List Function) (function : Function) :
    Typing.Setting :=
  ⟨party.name, party.holdings program, (before ++ [function]).map Function.signature, function.signature⟩

/-- Where each item has a value, the first item of a key is found by its value. -/
theorem lookup_keyed {α β : Type} (key : α → String) {value? : α → Option β} {items : List α}
    (all : ∀ item ∈ items, (value? item).isSome) (name : String) :
    (items.filterMap fun item => (value? item).map (Prod.mk (key item))).lookup name =
      (items.find? fun item => key item = name).bind value? := by
  induction items with
  | nil => rfl
  | cons item rest ih =>
    rw [List.forall_mem_cons] at all
    obtain ⟨value, found⟩ := Option.isSome_iff_exists.mp all.1
    rw [List.filterMap_cons, found, Option.map_some, List.lookup_cons, List.find?_cons, ih all.2]
    by_cases same : name = key item
    · simp [same, found]
    · have different : (name == key item) = false := by simpa using same
      simp [different, Ne.symm same]

theorem lookup_mapped {α β : Type} (key : α → String) (value : α → β) (items : List α) (name : String) :
    (items.map fun item => (key item, value item)).lookup name =
      (items.find? fun item => key item = name).map value := by
  have all : ∀ item ∈ items, ((some ∘ value) item).isSome := fun _ _ => rfl
  have keyed := lookup_keyed key all name
  have entries : (fun item => ((some ∘ value) item).map (Prod.mk (key item))) =
      some ∘ fun item => (key item, value item) := rfl
  rwa [entries, List.filterMap_eq_map, ← Option.map_eq_bind] at keyed

theorem lookup_entry (tunnels : List Tunnel) (name : String) : (tunnels.map Tunnel.entry).lookup name =
    (tunnels.find? fun tunnel => tunnel.name = name).map Tunnel.type :=
  lookup_mapped Tunnel.name Tunnel.type tunnels name

end Typed

namespace Typing
open Typed (Party)

namespace InTurn
variable {α β : Type} {derives : List α → α → β → Prop} {before items : List α} {typed : List β}

theorem split (turn : InTurn derives before items typed) {first : List β} {one : β} {rest : List β}
    (whole : typed = first ++ one :: rest) : ∃ earlier item later, items = earlier ++ item :: later ∧
      InTurn derives before earlier first ∧ derives (before ++ earlier) item one := by
  induction turn generalizing first with
  | nil => simp at whole
  | @cons before items item head _ derived _ ih =>
    cases first with
    | nil =>
      cases whole
      exact ⟨[], item, items, rfl, .nil, by rwa [List.append_nil]⟩
    | cons front first =>
      cases whole
      obtain ⟨earlier, one, later, rfl, turn, last⟩ := ih rfl
      exact ⟨item :: earlier, one, later, rfl, .cons derived turn, by rwa [List.append_cons]⟩

theorem counterpart (turn : InTurn derives before items typed) {one : β} (member : one ∈ typed) :
    ∃ item ∈ items, ∃ earlier, derives earlier item one := by
  obtain ⟨first, rest, whole⟩ := List.append_of_mem member
  obtain ⟨earlier, item, later, rfl, -, derived⟩ := turn.split whole
  exact ⟨item, List.mem_append_right _ List.mem_cons_self, _, derived⟩

theorem forall_items {holds : α → Prop}
    (each : ∀ before item typed, derives before item typed → holds item)
    (turn : InTurn derives before items typed) : ∀ item ∈ items, holds item := by
  induction turn with
  | nil => nofun
  | cons derived _ ih => exact List.forall_mem_cons.mpr ⟨each _ _ _ derived, ih⟩

theorem pairwise {related : α → α → Prop}
    (fresh : ∀ before item typed, derives before item typed → ∀ other ∈ before, related other item)
    (turn : InTurn derives before items typed) (already : before.Pairwise related) :
    (before ++ items).Pairwise related := by
  induction turn with
  | nil => rwa [List.append_nil]
  | cons derived _ ih =>
    rw [List.append_cons]
    apply ih
    rw [List.pairwise_append]
    refine ⟨already, List.pairwise_singleton _ _, fun other earlier item last => ?_⟩
    rw [List.mem_singleton.mp last]
    exact fresh _ _ _ derived other earlier

end InTurn

variable {options : Options}

section
variable {owner : String} {holdings : Holdings}

theorem FunctionDerives.signature_eq {before : List Function} {function : Function}
    {typed : Typed.Function} (derives : FunctionDerives options owner holdings before function typed) :
    typed.signature = function.signature := by
  have parameters : typed.parameters.map Typed.Parameter.type = function.parameters.map Binder.type :=
    derives.parameters.map_eq fun _ _ _ derives => by rw [derives.result]
  have result := derives.result
  simp only [Prod.mk.injEq] at result
  rw [Typed.Function.signature, parameters, result.1, result.2.1, Function.signature]

theorem signatures_eq {before functions : List Function} {typed : List Typed.Function}
    (turn : InTurn (FunctionDerives options owner holdings) before functions typed) :
    typed.map Typed.Function.signature = functions.map Function.signature :=
  turn.map_eq fun _ _ _ derives => derives.signature_eq

theorem function_names_nodup {functions : List Function} {typed : List Typed.Function}
    (turn : InTurn (FunctionDerives options owner holdings) [] functions typed) :
    (typed.map Typed.Function.name).Nodup := by
  have names : typed.map Typed.Function.name = functions.map fun function => function.name.name :=
    turn.map_eq fun _ _ _ derives => congrArg Signature.name derives.signature_eq
  rw [names, List.Nodup, List.pairwise_map]
  refine turn.pairwise (fun before function _ derives other earlier same => ?_) .nil
  have fresh := derives.fresh
  rw [find?, List.find?_eq_none] at fresh
  exact fresh _ (List.mem_map_of_mem earlier) (decide_eq_true same)

end

theorem tunnels_declared_once {tunnels : List Tunnel} {typed : List Typed.Tunnel}
    (turn : InTurn TunnelDerives [] tunnels typed) :
    (tunnels.map fun tunnel => tunnel.binder.name.name).Nodup := by
  rw [List.Nodup, List.pairwise_map]
  refine turn.pairwise (fun before tunnel _ derives other earlier same => ?_) .nil
  have fresh := List.lookup_eq_none_iff.mp derives.fresh _ (List.mem_map_of_mem earlier)
  exact (bne_iff_ne.mp fresh) same.symm

theorem tunnel_names_nodup {tunnels : List Tunnel} {typed : List Typed.Tunnel}
    (turn : InTurn TunnelDerives [] tunnels typed) : (typed.map Typed.Tunnel.name).Nodup := by
  have names : typed.map Typed.Tunnel.name = tunnels.map fun tunnel => tunnel.binder.name.name :=
    turn.map_eq fun _ _ _ derives => congrArg Typed.Tunnel.name derives.result
  rw [names]
  exact tunnels_declared_once turn

theorem groups_have_clients {clients : List Client} {groups : List Group} {typed : List Typed.Group}
    (turn : InTurn (GroupDerives clients) [] groups typed) :
    ∀ group ∈ groups, (interface? clients group.client.name).isSome :=
  turn.forall_items fun _ _ _ derives => derives.declared

/-- Only declared groups have entries, and so a group is new only among those. -/
theorem groups_declared_once {clients : List Client} {groups : List Group} {typed : List Typed.Group}
    (turn : InTurn (GroupDerives clients) [] groups typed) :
    (groups.map fun group => group.name.name).Nodup := by
  have declared := groups_have_clients turn
  rw [List.Nodup, List.pairwise_map]
  have apart : groups.Pairwise fun other group =>
      (interface? clients other.client.name).isSome → other.name.name ≠ group.name.name := by
    refine turn.pairwise (fun before group _ derives other earlier made same => ?_) .nil
    obtain ⟨client, made⟩ := Option.isSome_iff_exists.mp made
    have entry : (other.name.name, client) ∈ groupEntries clients before :=
      List.mem_filterMap.mpr ⟨other, earlier, by rw [made, Option.map_some]⟩
    exact (bne_iff_ne.mp (List.lookup_eq_none_iff.mp derives.fresh _ entry)) same.symm
  exact apart.imp_of_mem fun among _ apart => apart (declared _ among)

theorem group_names_nodup {clients : List Client} {groups : List Group} {typed : List Typed.Group}
    (turn : InTurn (GroupDerives clients) [] groups typed) : (typed.map Typed.Group.name).Nodup := by
  have names : typed.map Typed.Group.name = groups.map fun group => group.name.name :=
    turn.map_eq fun _ _ _ derives => congrArg Typed.Group.name derives.result
  rw [names]
  exact groups_declared_once turn

theorem entries_eq {before tunnels : List Tunnel} {typed : List Typed.Tunnel}
    (turn : InTurn TunnelDerives before tunnels typed) :
    typed.map Typed.Tunnel.entry = tunnels.map Tunnel.entry :=
  turn.map_eq fun _ _ _ derives => by
    rw [derives.result]
    rfl

theorem ClientDerives.interface_eq {before : List Client} {client : Client} {typed : Typed.Client}
    (derives : ClientDerives options before client typed) : typed.interface = client.interface := by
  have name : typed.name = client.name.name := congrArg Prod.fst derives.result
  rw [Typed.Client.interface, entries_eq derives.tunnels, signatures_eq derives.functions, name,
    Client.interface]

theorem interfaces_eq {before clients : List Client} {typed : List Typed.Client}
    (turn : InTurn (ClientDerives options) before clients typed) :
    typed.map Typed.Client.interface = clients.map Client.interface :=
  turn.map_eq fun _ _ _ derives => derives.interface_eq

section
variable {program : Program} {typed : Typed.Program} (derives : ProgramDerives options program typed)
include derives

theorem ProgramDerives.interface?_eq (name : String) :
    typed.interface? name = interface? program.clients name := by
  rw [interface?_eq_find?, ← interfaces_eq derives.clients, List.find?_map]
  rfl

theorem ProgramDerives.clients_declared_once :
    (program.clients.map fun client => client.name.name).Nodup := by
  rw [List.Nodup, List.pairwise_map]
  refine derives.clients.pairwise (fun before client _ derives other earlier same => ?_) .nil
  have fresh := derives.fresh
  rw [interface?, Option.map_eq_none_iff, List.find?_eq_none] at fresh
  exact fresh other earlier (by simpa using same)

theorem ProgramDerives.client_names_nodup : (typed.clients.map Typed.Client.name).Nodup := by
  have names : typed.clients.map Typed.Client.name = program.clients.map fun client => client.name.name :=
    derives.clients.map_eq fun _ _ _ derives => congrArg Interface.name derives.interface_eq
  rw [names]
  exact derives.clients_declared_once

theorem ProgramDerives.groupEntries_eq :
    (Party.server typed.server).holdings typed =
      .groups (groupEntries program.clients program.server.groups) := by
  have groups := derives.server.groups.eq_map fun _ _ _ derives => derives.result
  rw [Party.holdings, groupEntries, groups, List.filterMap_map]
  simp only [Function.comp_def, derives.interface?_eq, Group.typed]

/-- A function was checked in what the typed program has before it and in its part. -/
theorem ProgramDerives.function_derives {party : Party} (member : party ∈ typed.parties)
    {before after : List Typed.Function} {function : Typed.Function}
    (whole : party.functions = before ++ function :: after) :
    ∃ owner holdings earlier, ∃ source ∈ program.functions,
      FunctionDerives options owner holdings earlier source function ∧
        Setting.of owner holdings earlier source = party.setting typed before function := by
  have setting : ∀ {owner holdings all},
      InTurn (FunctionDerives options owner holdings) [] all party.functions →
      owner = party.name → holdings = party.holdings typed → all ⊆ program.functions →
      ∃ owner holdings earlier, ∃ source ∈ program.functions,
        FunctionDerives options owner holdings earlier source function ∧
          Setting.of owner holdings earlier source = party.setting typed before function := by
    rintro _ _ all turn rfl rfl within
    obtain ⟨earlier, source, later, rfl, first, last⟩ := turn.split whole
    refine ⟨_, _, earlier, source, within (List.mem_append_right _ List.mem_cons_self), last, ?_⟩
    rw [Setting.of, Party.setting, List.map_append, List.map_append, signatures_eq first,
      List.map_singleton, List.map_singleton, last.signature_eq]
  obtain ⟨client, within, rfl⟩ | rfl := Typed.Program.mem_parties.mp member
  · obtain ⟨source, declared, _, derived⟩ := derives.clients.counterpart within
    refine setting derived.functions (congrArg Prod.fst derived.result).symm ?_ ?_
    · rw [Party.holdings, entries_eq derived.tunnels]
    · exact fun function among =>
        List.mem_append_left _ (List.mem_flatMap.mpr ⟨source, declared, among⟩)
  · exact setting derives.server.functions (congrArg Prod.fst derives.server.result).symm
      derives.groupEntries_eq.symm (List.subset_append_right _ _)

/-- Whatever occurs in a function derives where it stands. -/
theorem ProgramDerives.placed {party : Party} (member : party ∈ typed.parties)
    {before after : List Typed.Function} {function : Typed.Function}
    (whole : party.functions = before ++ function :: after) :
    (∀ statement ∈ function.statements,
        StmtPlaced options (party.setting typed before function) statement) ∧
      ∀ site ∈ function.occurrences, ExprPlaced (party.setting typed before function) site := by
  obtain ⟨_, _, _, _, -, derived, same⟩ := derives.function_derives member whole
  rw [← same]
  exact ⟨derived.statements, derived.occurrences⟩

end

end Typing
end Multiparty
