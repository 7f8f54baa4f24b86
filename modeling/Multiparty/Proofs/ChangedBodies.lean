import Multiparty.Proofs.BodyReplacement

/-! Programs in which every function gets another body. The rules for what stands around a body do not look at it, so
what is known of the bodies alone carries over to functions, parts and programs. -/

namespace Multiparty

def Function.mapBody (change : List Stmt → List Stmt) (function : Function) : Function :=
  function.withBody (change function.body)

def Program.mapBodies (change : List Stmt → List Stmt) (program : Program) : Program :=
  { program with
    clients := program.clients.map (·.mapFunctions (List.map (Function.mapBody change)))
    server := program.server.mapFunctions (List.map (Function.mapBody change)) }

namespace Typed

def Function.mapBody (change : List Stmt → List Stmt) (function : Function) : Function :=
  function.withBody (change function.body)

def Program.mapBodies (change : List Stmt → List Stmt) (program : Program) : Program :=
  { program with
    clients := program.clients.map (·.mapFunctions (List.map (Function.mapBody change)))
    server := program.server.mapFunctions (List.map (Function.mapBody change)) }

end Typed

theorem Program.mapBodies_id (program : Program) : program.mapBodies id = program := by
  have functions : List.map (Function.mapBody id) = id := List.map_id_fun
  have clients : (fun client : Client => client.mapFunctions id) = id := rfl
  simp only [mapBodies, functions, clients, List.map_id]
  rfl

theorem Typed.Program.mapBodies_id (program : Typed.Program) : program.mapBodies id = program := by
  have functions : List.map (Function.mapBody id) = id := List.map_id_fun
  have clients : (fun client : Client => client.mapFunctions id) = id := rfl
  simp only [mapBodies, functions, clients, List.map_id]
  rfl

namespace Typing

section
variable {α β γ δ : Type} {derives : List α → α → β → Prop} {others : List γ → γ → δ → Prop}
  {change : α → γ} {changeTyped : β → δ} {before items : List α}
  (each : ∀ before item typed, derives before item typed →
    others (before.map change) (change item) (changeTyped typed))
include each

theorem InTurn.map {typed : List β} (turn : InTurn derives before items typed) :
    InTurn others (before.map change) (items.map change) (typed.map changeTyped) := by
  induction turn with
  | nil => exact .nil
  | cons derived _ ih =>
    rw [List.map_append, List.map_singleton] at ih
    exact .cons (each _ _ _ derived) ih

theorem BreaksInTurn.map {breaks : List α → α → Violation → Position → Prop}
    {otherBreaks : List γ → γ → Violation → Position → Prop} {violated : Violation} {place : Position}
    (fault : ∀ before item, breaks before item violated place →
      otherBreaks (before.map change) (change item) violated place)
    (broken : BreaksInTurn derives breaks before items violated place) :
    BreaksInTurn others otherBreaks (before.map change) (items.map change) violated place := by
  induction broken with
  | here broken => exact .here (fault _ _ broken)
  | later derived _ ih =>
    have further := ih fault
    rw [List.map_append, List.map_singleton] at further
    exact .later (each _ _ _ derived) further

end

theorem signatures_mapBody (change : List Stmt → List Stmt) (functions : List Function) :
    (functions.map (Function.mapBody change)).map Function.signature = functions.map Function.signature := by
  rw [List.map_map]
  rfl

theorem setting_mapBody (owner : String) (holdings : Holdings) (change : List Stmt → List Stmt)
    (before : List Function) (function : Function) :
    Setting.of owner holdings (before.map (Function.mapBody change)) (function.mapBody change) =
      .of owner holdings before function := by
  have signatures := signatures_mapBody change (before ++ [function])
  rw [List.map_append, List.map_singleton] at signatures
  rw [Setting.of, signatures]
  rfl

theorem interfaces_mapBodies (change : List Stmt → List Stmt) (clients : List Client) :
    (clients.map (·.mapFunctions (List.map (Function.mapBody change)))).map Client.interface =
      clients.map Client.interface := by
  rw [List.map_map]
  apply List.map_congr_left
  intro client _
  exact congrArg (Interface.mk _ _) (signatures_mapBody change client.functions)

theorem groupBreaks_congr {clients others : List Client} (unseen : interface? others = interface? clients) :
    ∀ owner, GroupBreaks owner others = GroupBreaks owner clients := by
  have entries := groupEntries_congr unseen
  intro owner
  funext before group violated place
  refine propext ⟨fun broken => ?_, fun broken => ?_⟩
  · cases broken with
    | undeclared missing => exact .undeclared (unseen ▸ missing)
    | duplicate declared taken => exact .duplicate (unseen ▸ declared) (entries ▸ taken)
  · cases broken with
    | undeclared missing => exact .undeclared (unseen ▸ missing)
    | duplicate declared taken => exact .duplicate (unseen ▸ declared) (entries ▸ taken)

theorem ServerBreaks.of_interfaces {options : Options} {clients others : List Client} {server : Server}
    {violated : Violation} {place : Position}
    (same : others.map Client.interface = clients.map Client.interface)
    (broken : ServerBreaks options clients server violated place) :
    ServerBreaks options others server violated place := by
  have unseen := interface?_congr same
  have entries := groupEntries_congr unseen
  cases broken with
  | groups broken =>
    rw [← groupDerives_congr unseen, ← groupBreaks_congr unseen] at broken
    exact .groups broken
  | functions groups broken =>
    rw [← groupDerives_congr unseen] at groups
    rw [← entries] at broken
    exact .functions groups broken

section
variable {options other : Options} {change : List Stmt → List Stmt}
  {changeTyped : List Typed.Stmt → List Typed.Stmt} {owner : String} {holdings : Holdings}
  (each : ∀ {setting context body typed after},
    StmtsDerive options setting .nothing context body typed after →
    StmtsDerive other setting .nothing context (change body) (changeTyped typed) after)
include each

theorem FunctionDerives.mapBody {before : List Function} {function : Function} {typed : Typed.Function}
    (derives : FunctionDerives options owner holdings before function typed) :
    FunctionDerives other owner holdings (before.map (Function.mapBody change)) (function.mapBody change)
      (typed.mapBody changeTyped) := by
  obtain ⟨fresh, allowed, parameters, ⟨after, body⟩, result⟩ := derives
  rw [← signatures_mapBody change] at fresh
  rw [← setting_mapBody owner holdings change] at allowed parameters body
  exact ⟨fresh, allowed, parameters, ⟨after, each body⟩, result⟩

theorem ClientDerives.mapBodies {before : List Client} {client : Client} {typed : Typed.Client}
    (derives : ClientDerives options before client typed) :
    ClientDerives other (before.map (·.mapFunctions (List.map (Function.mapBody change))))
      (client.mapFunctions (List.map (Function.mapBody change)))
      (typed.mapFunctions (List.map (Typed.Function.mapBody changeTyped))) := by
  obtain ⟨fresh, tunnels, functions, result⟩ := derives
  rw [← interface?_congr (interfaces_mapBodies change before)] at fresh
  exact ⟨fresh, tunnels, functions.map fun _ _ _ derives => derives.mapBody each, result⟩

theorem ServerDerives.mapBodies {clients : List Client} {server : Server} {typed : Typed.Server}
    (derives : ServerDerives options clients server typed) :
    ServerDerives other (clients.map (·.mapFunctions (List.map (Function.mapBody change))))
      (server.mapFunctions (List.map (Function.mapBody change)))
      (typed.mapFunctions (List.map (Typed.Function.mapBody changeTyped))) := by
  obtain ⟨groups, functions, result⟩ := derives
  have changed : ServerDerives other clients (server.mapFunctions (List.map (Function.mapBody change)))
      (typed.mapFunctions (List.map (Typed.Function.mapBody changeTyped))) :=
    ⟨groups, functions.map fun _ _ _ derives => derives.mapBody each, result⟩
  exact changed.of_interfaces (interfaces_mapBodies change clients)

/-- If what derives for a body derives for the changed body, then so it is for programs. -/
theorem ProgramDerives.mapBodies {program : Program} {typed : Typed.Program}
    (derives : ProgramDerives options program typed) :
    ProgramDerives other (program.mapBodies change) (typed.mapBodies changeTyped) := by
  obtain ⟨clients, server, result⟩ := derives
  exact ⟨clients.map fun _ _ _ derives => derives.mapBodies each, server.mapBodies each, result⟩

section
variable {violated : Violation} {place : Position}
  (fault : ∀ {setting context body}, StmtsBreak options setting .nothing context body violated place →
    StmtsBreak other setting .nothing context (change body) violated place)
include fault

omit each in
theorem FunctionBreaks.mapBody {before : List Function} {function : Function}
    (broken : FunctionBreaks options owner holdings before function violated place) :
    FunctionBreaks other owner holdings (before.map (Function.mapBody change)) (function.mapBody change)
      violated place := by
  have signatures := signatures_mapBody change before
  have setting := setting_mapBody owner holdings change before function
  cases broken with
  | duplicate taken =>
    rw [← signatures] at taken
    exact .duplicate taken
  | reserved fresh client reserved =>
    rw [← signatures] at fresh
    rw [← setting] at client
    exact .reserved fresh client reserved
  | parameters fresh allowed broken =>
    rw [← signatures] at fresh
    rw [← setting] at allowed broken
    exact .parameters fresh allowed broken
  | body fresh allowed parameters broken =>
    rw [← signatures] at fresh
    rw [← setting] at allowed parameters broken
    exact .body fresh allowed parameters (fault broken)

theorem ClientBreaks.mapBodies {before : List Client} {client : Client}
    (broken : ClientBreaks options before client violated place) :
    ClientBreaks other (before.map (·.mapFunctions (List.map (Function.mapBody change))))
      (client.mapFunctions (List.map (Function.mapBody change))) violated place := by
  have unseen := interface?_congr (interfaces_mapBodies change before)
  cases broken with
  | duplicate taken =>
    rw [← unseen] at taken
    exact .duplicate taken
  | tunnels fresh broken =>
    rw [← unseen] at fresh
    exact .tunnels fresh broken
  | functions fresh tunnels broken =>
    rw [← unseen] at fresh
    exact .functions fresh tunnels
      (broken.map (fun _ _ _ derives => derives.mapBody each) fun _ _ broken => broken.mapBody fault)

theorem ServerBreaks.mapBodies {clients : List Client} {server : Server}
    (broken : ServerBreaks options clients server violated place) :
    ServerBreaks other (clients.map (·.mapFunctions (List.map (Function.mapBody change))))
      (server.mapFunctions (List.map (Function.mapBody change))) violated place := by
  have changed : ServerBreaks other clients (server.mapFunctions (List.map (Function.mapBody change)))
      violated place := by
    cases broken with
    | groups broken => exact .groups broken
    | functions groups broken =>
      exact .functions groups
        (broken.map (fun _ _ _ derives => derives.mapBody each) fun _ _ broken => broken.mapBody fault)
  exact changed.of_interfaces (interfaces_mapBodies change clients)

/-- If a changed body also breaks the rule that the body breaks, and at the same place, then so it is for programs. -/
theorem ProgramBreaks.mapBodies {program : Program}
    (broken : ProgramBreaks options program violated place) :
    ProgramBreaks other (program.mapBodies change) violated place := by
  cases broken with
  | clients broken =>
    exact .clients
      (broken.map (fun _ _ _ derives => derives.mapBodies each) fun _ _ broken => broken.mapBodies each fault)
  | server clients broken =>
    exact .server (clients.map fun _ _ _ derives => derives.mapBodies each) (broken.mapBodies each fault)

end

end

end Typing
end Multiparty
