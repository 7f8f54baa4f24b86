import Mathlib.Data.List.Find
import Mathlib.Data.List.Forall2
import Multiparty.Proofs.AlikeSettings
import Multiparty.Proofs.Counterparts
import Multiparty.Proofs.ProgramChecks

/-! The clients of a program, the tunnels of a client and the groups of the server may be declared in any order. Each
is found by its name, and no two have the same, so the order shows in the typed program only as the order there. -/

namespace Multiparty

section
variable {α β γ : Type}

/-- The items at the indices in `order`. -/
def inOrder (order : List Nat) (items : List α) : List α :=
  order.filterMap (items[·]?)

/-- The order that leads back from `order`, which has each index once. -/
def leadingBack (order : List Nat) : List Nat :=
  (List.range order.length).map order.idxOf

theorem inOrder_range (items : List α) : inOrder (List.range items.length) items = items := by
  have all : (List.range items.length).map (items[·]?) = items.map some := by
    apply List.ext_getElem
    · rw [List.length_map, List.length_map, List.length_range]
    · intro place _ bound
      rw [List.getElem_map, List.getElem_map, List.getElem_range]
      exact List.getElem?_eq_getElem _
  calc inOrder (List.range items.length) items
      = ((List.range items.length).map (items[·]?)).filterMap id := by rw [List.filterMap_map]; rfl
    _ = items := by rw [all, List.filterMap_map, Function.id_comp, List.filterMap_some]

section
variable {order : List Nat} {items : List α} (permutes : order.Perm (List.range items.length))
include permutes

theorem inOrder_perm : (inOrder order items).Perm items := by
  have perm := permutes.filterMap (items[·]?)
  rwa [← inOrder, ← inOrder, inOrder_range] at perm

theorem getElem?_inOrder (place : Nat) : (inOrder order items)[place]? = order[place]?.bind (items[·]?) := by
  have inside : ∀ index ∈ order, index < items.length :=
    fun index member => List.mem_range.mp (permutes.subset member)
  clear permutes
  induction order generalizing place with
  | nil => rfl
  | cons index order ih =>
    rw [List.forall_mem_cons] at inside
    have found := List.getElem?_eq_getElem inside.1
    rw [inOrder, List.filterMap_cons_some found]
    cases place with
    | zero => exact found.symm
    | succ place => exact ih place inside.2

theorem leadingBack_perm : (leadingBack order).Perm (List.range items.length) := by
  have once : order.Nodup := permutes.nodup_iff.mpr List.nodup_range
  have places : order.map order.idxOf = List.range order.length := by
    apply List.ext_getElem (by rw [List.length_map, List.length_range])
    intro place bound _
    rw [List.getElem_map, List.getElem_range]
    exact once.idxOf_getElem place _
  have same : order.length = items.length := by rw [permutes.length_eq, List.length_range]
  calc leadingBack order
      = (List.range items.length).map order.idxOf := by rw [leadingBack, same]
    List.Perm _ (order.map order.idxOf) := permutes.symm.map order.idxOf
    _ = List.range items.length := by rw [places, same]

theorem inOrder_leadingBack : inOrder (leadingBack order) (inOrder order items) = items := by
  have same : order.length = items.length := by rw [permutes.length_eq, List.length_range]
  rw [inOrder, leadingBack, same, List.filterMap_map]
  refine Eq.trans (List.filterMap_congr fun index member => ?_) (inOrder_range items)
  rw [Function.comp_apply, getElem?_inOrder permutes, List.getElem?_idxOf (permutes.mem_iff.mpr member),
    Option.bind_some]

end

theorem forall₂_inOrder {related : α → β → Prop} {items : List α} {others : List β}
    (each : List.Forall₂ related items others) (order : List Nat) :
    List.Forall₂ related (inOrder order items) (inOrder order others) := by
  have found : ∀ index : Nat, Option.Rel related items[index]? others[index]? := by
    intro index
    induction each generalizing index with
    | nil => exact .none
    | cons first _ ih =>
      cases index with
      | zero => exact .some first
      | succ index => exact ih index
  induction order with
  | nil => exact .nil
  | cons index order ih =>
    have first := found index
    rw [inOrder, inOrder, List.filterMap_cons, List.filterMap_cons]
    generalize items[index]? = item?, others[index]? = other? at first
    cases first with
    | none => exact ih
    | some related => exact .cons related ih

theorem inOrder_zipWith (combine : α → β → γ) {items : List α} {others : List β}
    (same : items.length = others.length) (order : List Nat) :
    inOrder order (List.zipWith combine items others) =
      List.zipWith combine (inOrder order items) (inOrder order others) := by
  induction order with
  | nil => rfl
  | cons index order ih =>
    rw [inOrder, inOrder, inOrder, List.filterMap_cons, List.filterMap_cons, List.filterMap_cons,
      List.getElem?_zipWith]
    by_cases bound : index < items.length
    · rw [List.getElem?_eq_getElem bound, List.getElem?_eq_getElem (same ▸ bound)]
      exact congrArg (combine _ _ :: ·) ih
    · have outside := Nat.le_of_not_lt bound
      rw [List.getElem?_eq_none outside, List.getElem?_eq_none (same ▸ outside)]
      exact ih

section
variable {δ ε : Type} {fits : α → β → Prop} {combine : α → β → δ} {orders : List α} {items : List β}
  (fit : List.Forall₂ fits orders items)
include fit

theorem forall₂_zipWith {related : β → γ → Prop} {result : δ → ε → Prop} {combineOther : α → γ → ε}
    {others : List γ} (relate : List.Forall₂ related items others)
    (each : ∀ order item other, fits order item → related item other →
      result (combine order item) (combineOther order other)) :
    List.Forall₂ result (List.zipWith combine orders items) (List.zipWith combineOther orders others) := by
  induction fit generalizing others with
  | nil =>
    cases relate
    exact .nil
  | cons first _ ih =>
    cases relate with
    | cons head rest => exact .cons (each _ _ _ first head) (ih rest)

theorem forall₂_zipWith_right {result : α → δ → Prop}
    (each : ∀ order item, fits order item → result order (combine order item)) :
    List.Forall₂ result orders (List.zipWith combine orders items) := by
  induction fit with
  | nil => exact .nil
  | cons first _ ih => exact .cons (each _ _ first) ih

theorem zipWith_zipWith_eq {restore : α → δ → β}
    (each : ∀ order item, fits order item → restore order (combine order item) = item) :
    List.zipWith restore orders (List.zipWith combine orders items) = items := by
  induction fit with
  | nil => rfl
  | cons first _ ih => exact congrArg₂ List.cons (each _ _ first) ih

theorem map_zipWith_eq {view : δ → ε} {key : β → ε}
    (each : ∀ order item, view (combine order item) = key item) :
    (List.zipWith combine orders items).map view = items.map key := by
  induction fit with
  | nil => rfl
  | cons _ _ ih => exact congrArg₂ List.cons (each _ _) ih

end

/-- Where no two items have the same key, an item is found by its key in any order. -/
theorem find?_inOrder {key : α → String} {items : List α} (once : (items.map key).Nodup) {order : List Nat}
    (permutes : order.Perm (List.range items.length)) (name : String) :
    (inOrder order items).find? (fun item => key item = name) = items.find? fun item => key item = name := by
  refine (List.find?_eq_find?_of_perm (inOrder_perm permutes).symm ?_).symm
  rintro item ⟨member, first⟩ other ⟨among, second⟩
  exact List.inj_on_of_nodup_map once member among ((of_decide_eq_true first).trans (of_decide_eq_true second).symm)

end

def Client.arranged (order : List Nat) (client : Client) : Client :=
  { client with tunnels := inOrder order client.tunnels }

def Server.arranged (order : List Nat) (server : Server) : Server :=
  { server with groups := inOrder order server.groups }

/-- The order of the tunnels for each client, and the orders of the clients and of the groups. -/
structure Arrangement where
  tunnels : List (List Nat)
  clients : List Nat
  groups : List Nat

/-- The clients are put in order after their tunnels. -/
def Program.arranged (arrangement : Arrangement) (program : Program) : Program :=
  { program with
    clients := inOrder arrangement.clients (List.zipWith Client.arranged arrangement.tunnels program.clients)
    server := program.server.arranged arrangement.groups }

namespace Typed

def Client.arranged (order : List Nat) (client : Client) : Client :=
  { client with tunnels := inOrder order client.tunnels }

def Server.arranged (order : List Nat) (server : Server) : Server :=
  { server with groups := inOrder order server.groups }

def Program.arranged (arrangement : Arrangement) (program : Program) : Program :=
  { program with
    clients := inOrder arrangement.clients (List.zipWith Client.arranged arrangement.tunnels program.clients)
    server := program.server.arranged arrangement.groups }

end Typed

namespace Arrangement

/-- Each order has each index once, so nothing is lost. -/
structure Permutes (arrangement : Arrangement) (program : Program) : Prop where
  tunnels : List.Forall₂ (fun order (client : Client) => order.Perm (List.range client.tunnels.length))
    arrangement.tunnels program.clients
  clients : arrangement.clients.Perm (List.range program.clients.length)
  groups : arrangement.groups.Perm (List.range program.server.groups.length)

def back (arrangement : Arrangement) : Arrangement where
  tunnels := inOrder arrangement.clients (arrangement.tunnels.map leadingBack)
  clients := leadingBack arrangement.clients
  groups := leadingBack arrangement.groups

namespace Permutes
variable {arrangement : Arrangement} {program : Program} (permutes : arrangement.Permutes program)
include permutes

theorem length_eq :
    (List.zipWith Client.arranged arrangement.tunnels program.clients).length = program.clients.length := by
  rw [List.length_zipWith, permutes.tunnels.length_eq, Nat.min_self]

theorem clients_zipWith : arrangement.clients.Perm
    (List.range (List.zipWith Client.arranged arrangement.tunnels program.clients).length) := by
  rw [permutes.length_eq]
  exact permutes.clients

theorem back : arrangement.back.Permutes (program.arranged arrangement) where
  tunnels := by
    refine forall₂_inOrder ?_ arrangement.clients
    rw [List.forall₂_map_left_iff]
    refine forall₂_zipWith_right permutes.tunnels fun order client perm => ?_
    rw [Client.arranged, (inOrder_perm perm).length_eq]
    exact leadingBack_perm perm
  clients := by
    have perm := leadingBack_perm permutes.clients_zipWith
    rwa [← (inOrder_perm permutes.clients_zipWith).length_eq] at perm
  groups := by
    have perm := leadingBack_perm permutes.groups
    rwa [← (inOrder_perm permutes.groups).length_eq] at perm

theorem arranged_back : (program.arranged arrangement).arranged arrangement.back = program := by
  have clients : inOrder (leadingBack arrangement.clients)
      (List.zipWith Client.arranged (inOrder arrangement.clients (arrangement.tunnels.map leadingBack))
        (inOrder arrangement.clients
          (List.zipWith Client.arranged arrangement.tunnels program.clients))) = program.clients := by
    have same : (arrangement.tunnels.map leadingBack).length =
        (List.zipWith Client.arranged arrangement.tunnels program.clients).length := by
      rw [List.length_map, permutes.length_eq, permutes.tunnels.length_eq]
    rw [← inOrder_zipWith _ same, List.zipWith_map_left]
    have restored : List.zipWith (fun order client => client.arranged (leadingBack order)) arrangement.tunnels
        (List.zipWith Client.arranged arrangement.tunnels program.clients) = program.clients :=
      zipWith_zipWith_eq permutes.tunnels fun order client perm =>
        congrArg (fun tunnels => { client with tunnels := tunnels }) (inOrder_leadingBack perm)
    rw [restored]
    exact inOrder_leadingBack permutes.clients
  exact congrArg₂ (fun clients groups =>
    { program with clients := clients, server := { program.server with groups := groups } })
    clients (inOrder_leadingBack permutes.groups)

end Permutes

end Arrangement

namespace Typing

section
variable {α β : Type} {derives : List α → α → β → Prop} {before items : List α} {typed : List β}

/-- What derives in view of others derives alone. -/
theorem InTurn.forall₂ (alone : ∀ before item typed, derives before item typed → derives [] item typed)
    (turn : InTurn derives before items typed) : List.Forall₂ (derives []) items typed := by
  induction turn with
  | nil => exact .nil
  | cons derived _ ih => exact .cons (alone _ _ _ derived) ih

/-- What derives alone derives in view of others with other keys. -/
theorem InTurn.of_forall₂ {key : α → String}
    (among : ∀ before item typed, (∀ other ∈ before, key other ≠ key item) → derives [] item typed →
      derives before item typed)
    (each : List.Forall₂ (derives []) items typed) (once : ((before ++ items).map key).Nodup) :
    InTurn derives before items typed := by
  induction each generalizing before with
  | nil => exact .nil
  | @cons item _ rest _ derived _ ih =>
    refine .cons (among _ _ _ (fun other earlier same => ?_) derived) (ih (by rwa [← List.append_cons]))
    rw [List.map_append, List.nodup_append] at once
    exact once.2.2 _ (List.mem_map_of_mem earlier) _ (List.mem_map_of_mem List.mem_cons_self) same

end

theorem TunnelDerives.alone {before : List Tunnel} {tunnel : Tunnel} {typed : Typed.Tunnel}
    (derives : TunnelDerives before tunnel typed) : TunnelDerives [] tunnel typed :=
  ⟨rfl, derives.carries, derives.result⟩

theorem TunnelDerives.among {before : List Tunnel} {tunnel : Tunnel} {typed : Typed.Tunnel}
    (new : ∀ other ∈ before, other.binder.name.name ≠ tunnel.binder.name.name)
    (derives : TunnelDerives [] tunnel typed) : TunnelDerives before tunnel typed := by
  refine ⟨List.lookup_eq_none_iff.mpr fun entry member => ?_, derives.carries, derives.result⟩
  obtain ⟨other, earlier, rfl⟩ := List.mem_map.mp member
  exact bne_iff_ne.mpr (new other earlier).symm

theorem GroupDerives.alone {clients : List Client} {before : List Group} {group : Group} {typed : Typed.Group}
    (derives : GroupDerives clients before group typed) : GroupDerives clients [] group typed :=
  ⟨derives.declared, rfl, derives.result⟩

theorem GroupDerives.among {clients : List Client} {before : List Group} {group : Group} {typed : Typed.Group}
    (new : ∀ other ∈ before, other.name.name ≠ group.name.name)
    (derives : GroupDerives clients [] group typed) : GroupDerives clients before group typed := by
  refine ⟨derives.declared, List.lookup_eq_none_iff.mpr fun entry member => ?_, derives.result⟩
  obtain ⟨other, earlier, made⟩ := List.mem_filterMap.mp member
  obtain ⟨client, -, rfl⟩ := Option.map_eq_some_iff.mp made
  exact bne_iff_ne.mpr (new other earlier).symm

section
variable {options : Options} {before : List Client} {client : Client} {typed : Typed.Client}

theorem ClientDerives.alone (derives : ClientDerives options before client typed) :
    ClientDerives options [] client typed :=
  ⟨rfl, derives.tunnels, derives.functions, derives.result⟩

theorem ClientDerives.among (new : ∀ other ∈ before, other.name.name ≠ client.name.name)
    (derives : ClientDerives options [] client typed) : ClientDerives options before client typed := by
  have fresh : interface? before client.name.name = none := by
    rw [interface?, Option.map_eq_none_iff, List.find?_eq_none]
    intro other earlier
    exact decide_eq_true_iff.not.mpr (new other earlier)
  exact ⟨fresh, derives.tunnels, derives.functions, derives.result⟩

end

section
variable {tunnels : List Tunnel} {order : List Nat} (permutes : order.Perm (List.range tunnels.length))
include permutes

theorem lookup_tunnels_inOrder (once : (tunnels.map fun tunnel => tunnel.binder.name.name).Nodup) (name : String) :
    ((inOrder order tunnels).map Tunnel.entry).lookup name = (tunnels.map Tunnel.entry).lookup name := by
  have lookup := fun tunnels : List Tunnel =>
    Typed.lookup_mapped (fun tunnel : Tunnel => tunnel.binder.name.name) (·.binder.type) tunnels name
  exact (lookup _).trans ((congrArg _ (find?_inOrder once permutes name)).trans (lookup _).symm)

theorem tunnels_inOrder {typed : List Typed.Tunnel} (turn : InTurn TunnelDerives [] tunnels typed) :
    InTurn TunnelDerives [] (inOrder order tunnels) (inOrder order typed) := by
  have each := turn.forall₂ fun _ _ _ derives => derives.alone
  have once := ((inOrder_perm permutes).map _).nodup_iff.mpr (tunnels_declared_once turn)
  exact .of_forall₂ (fun _ _ _ => .among) (forall₂_inOrder each order) once

end

section
variable {options : Options} {client : Client} {typed : Typed.Client} {order : List Nat}
  (permutes : order.Perm (List.range client.tunnels.length))
include permutes

theorem interface_arranged (once : (client.tunnels.map fun tunnel => tunnel.binder.name.name).Nodup) :
    client.interface.Alike (client.arranged order).interface :=
  ⟨rfl, rfl, fun name => (lookup_tunnels_inOrder permutes once name).symm⟩

theorem ClientDerives.arranged (derives : ClientDerives options [] client typed) :
    ClientDerives options [] (client.arranged order) (typed.arranged order) := by
  obtain ⟨-, tunnels, functions, result⟩ := derives
  have held : (Holdings.tunnels (client.tunnels.map Tunnel.entry)).Alike
      (.tunnels ((inOrder order client.tunnels).map Tunnel.entry)) :=
    .tunnels fun name => (lookup_tunnels_inOrder permutes (tunnels_declared_once tunnels) name).symm
  exact ⟨rfl, tunnels_inOrder permutes tunnels, functions.imp fun _ _ _ derives => derives.alike held, result⟩

end

section
variable {clients others : List Client}
  (alike : ∀ name, Option.Rel Interface.Alike (interface? clients name) (interface? others name))
include alike

variable {groups : List Group} {typed : List Typed.Group} (turn : InTurn (GroupDerives clients) [] groups typed)
  {order : List Nat} (permutes : order.Perm (List.range groups.length))
include turn permutes

theorem groups_inOrder : InTurn (GroupDerives others) [] (inOrder order groups) (inOrder order typed) := by
  have each := turn.forall₂ fun _ _ _ derives => derives.alone
  have seen : List.Forall₂ (GroupDerives others []) groups typed := each.imp fun group _ derives =>
    ⟨(isSome_eq_of_rel (alike group.client.name)).symm.trans derives.declared, rfl, derives.result⟩
  have once := ((inOrder_perm permutes).map _).nodup_iff.mpr (groups_declared_once turn)
  exact .of_forall₂ (fun _ _ _ => .among) (forall₂_inOrder seen order) once

theorem groupEntries_inOrder :
    (Holdings.groups (groupEntries clients groups)).Alike (.groups (groupEntries others (inOrder order groups))) := by
  have declared := groups_have_clients turn
  have among : ∀ group ∈ inOrder order groups, (interface? others group.client.name).isSome :=
    fun group member =>
      (isSome_eq_of_rel (alike _)).symm.trans (declared group ((inOrder_perm permutes).subset member))
  refine .groups fun name => ?_
  have first := Typed.lookup_keyed (fun group : Group => group.name.name) declared name
  have second := Typed.lookup_keyed (fun group : Group => group.name.name) among name
  rw [find?_inOrder (groups_declared_once turn) permutes] at second
  rw [groupEntries, groupEntries, first, second]
  cases groups.find? fun group => group.name.name = name with
  | none => exact .none
  | some group => exact alike group.client.name

end

/-- The order of the tunnels does not show in what is found of a client. -/
theorem interface?_zipWith {clients : List Client} {orders : List (List Nat)}
    (permutes : List.Forall₂ (fun order (client : Client) => order.Perm (List.range client.tunnels.length))
      orders clients)
    (once : ∀ client ∈ clients, (client.tunnels.map fun tunnel => tunnel.binder.name.name).Nodup) (name : String) :
    Option.Rel Interface.Alike (interface? clients name)
      (interface? (List.zipWith Client.arranged orders clients) name) := by
  induction permutes with
  | nil => exact .none
  | @cons order client _ _ first _ ih =>
    rw [List.forall_mem_cons] at once
    rw [interface?, interface?, List.zipWith_cons_cons, List.find?_cons, List.find?_cons]
    by_cases same : client.name.name = name
    · have found : (client.arranged order).name.name = name := same
      simp only [same, found, decide_true, Option.map_some]
      exact .some (interface_arranged first once.1)
    · have different : (client.arranged order).name.name ≠ name := same
      simp only [same, different, decide_false]
      exact ih once.2

section
variable {options : Options} {program : Program} {typed : Typed.Program} {arrangement : Arrangement}
  (derives : ProgramDerives options program typed) (permutes : arrangement.Permutes program)
include derives permutes

theorem ProgramDerives.clients_arranged_once :
    ((List.zipWith Client.arranged arrangement.tunnels program.clients).map fun client => client.name.name).Nodup := by
  have names : (List.zipWith Client.arranged arrangement.tunnels program.clients).map (fun client => client.name.name) =
      program.clients.map fun client => client.name.name := map_zipWith_eq permutes.tunnels fun _ _ => rfl
  rw [names]
  exact derives.clients_declared_once

theorem ProgramDerives.clients_alike (name : String) : Option.Rel Interface.Alike (interface? program.clients name)
    (interface? (program.arranged arrangement).clients name) := by
  have once := derives.clients_arranged_once permutes
  have found : interface? (program.arranged arrangement).clients name =
      interface? (List.zipWith Client.arranged arrangement.tunnels program.clients) name :=
    congrArg _ (find?_inOrder once permutes.clients_zipWith name)
  rw [found]
  refine interface?_zipWith permutes.tunnels ?_ name
  exact derives.clients.forall_items fun _ _ _ derives => tunnels_declared_once derives.tunnels

/-- The rules hold of the members in any order. -/
theorem ProgramDerives.arranged :
    ProgramDerives options (program.arranged arrangement) (typed.arranged arrangement) := by
  have alike := derives.clients_alike permutes
  have server : ServerDerives options (program.arranged arrangement).clients
      (program.server.arranged arrangement.groups) (typed.server.arranged arrangement.groups) := by
    obtain ⟨groups, functions, result⟩ := derives.server
    have held := groupEntries_inOrder alike groups permutes.groups
    refine ⟨groups_inOrder alike groups permutes.groups, functions.imp ?_, result⟩
    exact fun _ _ _ derives => derives.alike held
  have each := derives.clients.forall₂ fun _ _ _ derives => derives.alone
  have arranged : List.Forall₂ (ClientDerives options [])
      (List.zipWith Client.arranged arrangement.tunnels program.clients)
      (List.zipWith Typed.Client.arranged arrangement.tunnels typed.clients) :=
    forall₂_zipWith permutes.tunnels each fun _ _ _ perm derives => derives.arranged perm
  have once := ((inOrder_perm permutes.clients_zipWith).map _).nodup_iff.mpr (derives.clients_arranged_once permutes)
  refine ⟨.of_forall₂ (fun _ _ _ => .among) ?_ once, server, derives.result⟩
  exact forall₂_inOrder arranged arrangement.clients

end

/-- Clients, the tunnels of each and the groups of the server may be declared in any order: the program is accepted in
all of them or in none, and typed the same but for the order. -/
theorem checkProgram_arranged (options : Options) {program : Program} {arrangement : Arrangement}
    (permutes : arrangement.Permutes program) :
    (checkProgram options (program.arranged arrangement)).toOption =
      (checkProgram options program).toOption.map (Typed.Program.arranged arrangement) := by
  cases checked : checkProgram options program with
  | ok typed =>
    rw [checkProgram_run ((derives_of_checkProgram checked).arranged permutes)]
    rfl
  | error diagnostic =>
    cases rechecked : checkProgram options (program.arranged arrangement) with
    | error _ => rfl
    | ok typed =>
      -- The rearranged program can be rearranged back, and would be accepted in that order too.
      have derives := (derives_of_checkProgram rechecked).arranged permutes.back
      rw [permutes.arranged_back] at derives
      rw [checkProgram_run derives] at checked
      cases checked

/-- Two kinds of clients, with two tunnels and one, and a server that visits both in one loop within another. -/
def surveying : Program :=
  let identifier (name : String) : Identifier := ⟨name, .nowhere⟩
  let binder (type : Ty) (name : String) : Binder := ⟨type, identifier name, .nowhere⟩
  let symbol (name : String) : Expr := .symbol name .nowhere
  let tunnel (type : Ty) (name : String) : Tunnel := ⟨binder type name, .nowhere⟩
  let function (name : String) (body : List Stmt) : Function := ⟨.void, identifier name, [], body, .nowhere⟩
  let statement (value : Expr) : Stmt := .expression value .nowhere
  let group (client name : String) : Group := ⟨identifier client, identifier name, .nowhere⟩
  { clients := [
      ⟨identifier "Voter", [tunnel .int "ballot", tunnel .bool "present"],
        [function "vote" [statement (.put (identifier "ballot") (.int 1 .nowhere) .nowhere .nowhere)]], .nowhere⟩,
      ⟨identifier "Auditor", [tunnel .int "total"], [function "audit" []], .nowhere⟩]
    server := ⟨identifier "Chair", [group "Voter" "voters", group "Auditor" "auditors"],
      [function "count" [
        .forEach (binder .client "auditor") (identifier "auditors")
          (.forEach (binder .client "voter") (identifier "voters")
            (.block [
              statement (.invoke (identifier "auditor") (identifier "audit") [] .nowhere .nowhere),
              statement (.remoteRead (identifier "voter") (identifier "ballot") .take .nowhere .nowhere),
              .display (symbol "voters") .nowhere] .nowhere) .nowhere) .nowhere]], .nowhere⟩
    span := .nowhere }

/-- Everything is declared the other way round. -/
theorem checkProgram_arranged_surveying :
    let reversed : Arrangement := ⟨[[1, 0], [0]], [1, 0], [1, 0]⟩
    reversed.Permutes surveying ∧ (checkProgram ⟨false⟩ surveying).isOk ∧
      (checkProgram ⟨false⟩ (surveying.arranged reversed)).toOption =
        (checkProgram ⟨false⟩ surveying).toOption.map (Typed.Program.arranged reversed) := by
  have permutes : Arrangement.Permutes ⟨[[1, 0], [0]], [1, 0], [1, 0]⟩ surveying :=
    ⟨.cons (by decide) (.cons (by decide) .nil), by decide, by decide⟩
  exact ⟨permutes, rfl, checkProgram_arranged ⟨false⟩ permutes⟩

end Typing
end Multiparty
