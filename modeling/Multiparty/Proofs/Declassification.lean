import Multiparty.Proofs.Counterparts
import Multiparty.Proofs.Flows
import Multiparty.Proofs.ProgramChecks

/-! No value is declassified on its way: in a program that checking accepts each flow is allowed, and so secret
values stay in places of their own type. -/

namespace Multiparty.Typing
open Typed (Places parameters?)

/-- A parameter that accepts a value may have it flow in. -/
theorem allowed_of_compatible {parameter value : Ty} (accepts : parameter.compatible value)
    (real : value ≠ .none) : Flow.Allowed ⟨some parameter, value, true⟩ := by
  simp only [Ty.compatible, Bool.and_eq_true, Bool.or_eq_true, beq_iff_eq, bne_iff_ne] at accepts
  obtain ⟨-, same | shown⟩ := accepts
  · exact same ▸ .exact
  · subst shown
    exact .shared (by simpa [Ty.isSecret] using real)

/-- No variable is declared with no type. -/
def Declared (known : Known Ty) : Prop :=
  ∀ name, known name ≠ some .none

namespace Declared
variable {known : Known Ty}

theorem nothing : Declared .nothing :=
  fun _ => nofun

theorem add (declared : Declared known) (name : String) {type : Ty} (real : type ≠ .none) :
    Declared (known.add name type) := by
  intro other
  unfold Known.add
  split
  · simpa using real
  · exact declared other

theorem drop (declared : Declared known) (name : String) : Declared (known.drop name) := by
  intro other
  unfold Known.drop
  split
  · nofun
  · exact declared other

theorem opens {names : List Identifier} {opened : Known Ty} (declared : Declared known)
    (opens : Opens known names opened) : Declared opened := by
  induction opens with
  | nil => exact declared
  | cons found secret _ ih => exact ih (declared.add _ (by simpa [Ty.isSecret] using secret))

theorem seeded {parameters : List Binder} (real : ∀ binder ∈ parameters, binder.type ≠ .none) :
    Declared (Typing.seeded parameters) := by
  suffices ∀ known, Declared known → Declared (parameters.foldl (fun known binder =>
      known.add binder.name.name binder.type) known) from this _ nothing
  induction parameters with
  | nil => exact fun _ declared => declared
  | cons first rest ih =>
    intro known declared
    rw [List.forall_mem_cons] at real
    exact ih real.2 _ (declared.add _ real.1)

end Declared

/-- The typed program has the functions of a client as the rules see them, and the client declares types. -/
structure Shows (places : Places) (client : Interface) : Prop where
  tunnels : ∀ name, client.tunnels.lookup name ≠ some .none
  functions : ∀ name signature, find? name client.functions = some signature →
    signature.returnType ≠ .none ∧
      places.invoked? client.name name = some signature.parameters

/-- The typed program has what a function can name as the rules see it. -/
structure Fits (places : Places) (setting : Setting) : Prop where
  tunnels : ∀ name type, setting.tunnel? name = some type →
    type ≠ .none ∧ places.tunnel? name = some type
  functions : ∀ name signature, find? name setting.functions = some signature →
    signature.returnType ≠ .none ∧ places.called? name = some signature.parameters
  groups : ∀ name client, setting.group? name = some client → Shows places client

theorem type?_ne_none {setting : Setting} {context : Known Ty} {name : String} {type : Ty}
    (declared : Declared context) (known : setting.type? context name = some type) :
    type ≠ .none := by
  rintro rfl
  rw [Setting.type?] at known
  split at known
  · cases known
  · cases known
  · exact declared name known

theorem Operates.ne_none {operator : Operator} {left right type : Ty}
    (operates : Operates operator left right type) : type ≠ .none := by
  cases operates with
  | operands takes => cases takes <;> nofun
  | equality => nofun

section
variable {places : Places} {setting : Setting} {loops : Known Interface}

mutual

/-- An expression that derives has a type, and all flows within it are allowed. -/
theorem ExprDerives.flows_allowed (fits : Fits places setting)
    (looped : ∀ name client, loops name = some client → Shows places client) {context : Known Ty}
    (declared : Declared context) (expr : Expr) {typed : Typed.Expr} (derives : ExprDerives setting loops context expr typed) :
    typed.type ≠ .none ∧ ∀ flow ∈ typed.flows places, flow.Allowed := by
  cases expr with
  | int | bool | string | readInt =>
    cases derives
    exact ⟨nofun, nofun⟩
  | symbol name span =>
    cases derives with
    | symbol known => exact ⟨type?_ne_none declared known, nofun⟩
  | binary operator left right span =>
    cases derives with
    | binary first second operates =>
      obtain ⟨-, flowsLeft⟩ := ExprDerives.flows_allowed fits looped declared left first
      obtain ⟨-, flowsRight⟩ := ExprDerives.flows_allowed fits looped declared right second
      exact ⟨operates.ne_none, List.forall_mem_append.mpr ⟨flowsLeft, flowsRight⟩⟩
  | not operand span =>
    cases derives with
    | not first truth => exact ⟨nofun, (ExprDerives.flows_allowed fits looped declared operand first).2⟩
  | call called arguments callSpan span =>
    cases derives with
    | call known derive =>
      obtain ⟨real, visible⟩ := fits.functions _ _ known
      refine ⟨real, ?_⟩
      rw [Typed.Expr.flows, visible, Option.getD_some]
      exact ArgumentsDerive.flows_allowed fits looped declared arguments derive
  | invoke target called arguments callSpan span =>
    cases derives with
    | invoke server bound known derive =>
      obtain ⟨real, visible⟩ := (looped _ _ bound).functions _ _ known
      refine ⟨real, ?_⟩
      rw [Typed.Expr.flows, visible, Option.getD_some]
      exact ArgumentsDerive.flows_allowed fits looped declared arguments derive
  | put tunnel value callSpan span =>
    cases derives with
    | put client carried first =>
      obtain ⟨-, visible⟩ := fits.tunnels _ _ carried
      refine ⟨nofun, ?_⟩
      rw [Typed.Expr.flows, visible, List.forall_mem_cons]
      exact ⟨.exact, (ExprDerives.flows_allowed fits looped declared value first).2⟩
  | read tunnel reading callSpan span =>
    cases derives with
    | read client carried => exact ⟨(fits.tunnels _ _ carried).1, nofun⟩
  | remotePut => cases derives
  | remoteRead target tunnel reading callSpan span =>
    cases derives with
    | remoteRead server bound carried =>
      refine ⟨?_, nofun⟩
      rintro rfl
      exact (looped _ _ bound).tunnels _ carried
  | reveal body names span =>
    cases derives with
    | reveal server opens first =>
      obtain ⟨real, flows⟩ := ExprDerives.flows_allowed fits looped (declared.opens opens) body first
      exact ⟨real, flows⟩
termination_by structural expr

theorem ArgumentsDerive.flows_allowed (fits : Fits places setting)
    (looped : ∀ name client, loops name = some client → Shows places client) {context : Known Ty} (declared : Declared context)
    (arguments : List Expr) {parameters : List Ty} {typed : List Typed.Expr}
    (derive : ArgumentsDerive setting loops context parameters arguments typed) :
    ∀ flow ∈ Typed.argumentsFlows places parameters typed, flow.Allowed := by
  cases arguments with
  | nil =>
    cases derive
    nofun
  | cons argument arguments =>
    cases derive with
    | cons first accepts rest =>
      obtain ⟨real, flowsFirst⟩ := ExprDerives.flows_allowed fits looped declared argument first
      have flowsRest := ArgumentsDerive.flows_allowed fits looped declared arguments rest
      rw [Typed.argumentsFlows, List.forall_mem_cons, List.forall_mem_append]
      exact ⟨allowed_of_compatible accepts real, flowsFirst, flowsRest⟩
termination_by structural arguments

end

theorem Assigns.flows_allowed (fits : Fits places setting)
    (looped : ∀ name client, loops name = some client → Shows places client) {context : Known Ty} (declared : Declared context)
    {assignment : Assignment} {typed : Typed.Expr}
    (assigns : Assigns setting loops context assignment typed) :
    ∀ flow ∈ assignFlows places context assignment.target.name typed, flow.Allowed := by
  rw [assignFlows, assigns.target, List.forall_mem_cons]
  exact ⟨.exact, (ExprDerives.flows_allowed fits looped declared _ assigns.value).2⟩

theorem Guards.flows_allowed (fits : Fits places setting)
    (looped : ∀ name client, loops name = some client → Shows places client) {context : Known Ty} (declared : Declared context) {condition : Expr}
    {typed : Typed.Expr} (guards : Guards setting loops context condition typed) :
    ∀ flow ∈ typed.flows places, flow.Allowed :=
  (ExprDerives.flows_allowed fits looped declared _ guards.derives).2

end

section
variable {options : Options} {setting : Setting}

mutual

/-- The typed statement declares what the rules say is known after it. -/
theorem StmtDerives.declared_eq {loops : Known Interface} {context after : Known Ty} (stmt : Stmt)
    {typed : Typed.Stmt} (derives : StmtDerives options setting loops context stmt typed after) :
    typed.declared context = after := by
  cases stmt with
  | declaration | assign | expression | display | returns =>
    cases derives <;> rfl
  | ifThen condition body span =>
    cases derives with
    | ifThen guards derives =>
      rw [Typed.Stmt.declared]
      exact StmtDerives.declared_eq body derives
  | ifElse condition body otherwise span =>
    cases derives with
    | ifElse guards first second =>
      rw [Typed.Stmt.declared, StmtDerives.declared_eq body first]
      exact StmtDerives.declared_eq otherwise second
  | whileLoop condition body span =>
    cases derives with
    | whileLoop guards derives =>
      rw [Typed.Stmt.declared]
      exact StmtDerives.declared_eq body derives
  | forEach binder group body span =>
    cases derives with
    | forEach server kind known admitted derives =>
      rw [Typed.Stmt.declared, StmtDerives.declared_eq body derives]
  | block body span =>
    cases derives with
    | block derive => exact StmtsDerive.declared_eq body derive
termination_by structural stmt

theorem StmtsDerive.declared_eq {loops : Known Interface} {context after : Known Ty}
    (stmts : List Stmt) {typed : List Typed.Stmt}
    (derive : StmtsDerive options setting loops context stmts typed after) :
    Typed.allDeclared context typed = after := by
  cases stmts with
  | nil =>
    cases derive
    rfl
  | cons first rest =>
    cases derive with
    | cons derives others =>
      rw [Typed.allDeclared, StmtDerives.declared_eq first derives]
      exact StmtsDerive.declared_eq rest others
termination_by structural stmts

end

variable {places : Places}

mutual

theorem StmtDerives.flows_allowed (fits : Fits places setting) {loops : Known Interface} {context after : Known Ty}
    (looped : ∀ name client, loops name = some client → Shows places client)
    (declared : Declared context) (stmt : Stmt) (real : .none ∉ stmt.declaredTypes)
    {typed : Typed.Stmt} (derives : StmtDerives options setting loops context stmt typed after) :
    Declared after ∧ ∀ flow ∈ stmtFlows places setting.current.returnType context stmt typed,
      flow.Allowed := by
  cases stmt with
  | declaration binder initial span =>
    rw [Stmt.declaredTypes, List.mem_singleton] at real
    have added := declared.add binder.name.name (Ne.symm real)
    cases derives with
    | declaration => exact ⟨added, nofun⟩
    | initialised admitted assigns => exact ⟨added, assigns.flows_allowed fits looped added⟩
  | assign assignment span =>
    cases derives with
    | assign assigns => exact ⟨declared, assigns.flows_allowed fits looped declared⟩
  | expression value span =>
    cases derives with
    | expression derives =>
      exact ⟨declared, (ExprDerives.flows_allowed fits looped declared value derives).2⟩
  | display value span =>
    cases derives with
    | display derives shown =>
      exact ⟨declared, (ExprDerives.flows_allowed fits looped declared value derives).2⟩
  | ifThen condition body span =>
    cases derives with
    | ifThen guards derives =>
      obtain ⟨kept, flows⟩ := StmtDerives.flows_allowed fits looped declared body real derives
      rw [stmtFlows, List.forall_mem_append]
      exact ⟨kept, guards.flows_allowed fits looped declared, flows⟩
  | ifElse condition body otherwise span =>
    rw [Stmt.declaredTypes, List.mem_append, not_or] at real
    cases derives with
    | ifElse guards first second =>
      obtain ⟨middle, flowsFirst⟩ := StmtDerives.flows_allowed fits looped declared body real.1 first
      obtain ⟨kept, flowsSecond⟩ :=
        StmtDerives.flows_allowed fits looped middle otherwise real.2 second
      rw [stmtFlows, StmtDerives.declared_eq body first, List.forall_mem_append,
        List.forall_mem_append]
      exact ⟨kept, ⟨guards.flows_allowed fits looped declared, flowsFirst⟩, flowsSecond⟩
  | whileLoop condition body span =>
    cases derives with
    | whileLoop guards derives =>
      obtain ⟨kept, flows⟩ := StmtDerives.flows_allowed fits looped declared body real derives
      rw [stmtFlows, List.forall_mem_append]
      exact ⟨kept, guards.flows_allowed fits looped declared, flows⟩
  | forEach binder group body span =>
    rw [Stmt.declaredTypes, List.mem_cons, not_or] at real
    cases derives with
    | @forEach _ _ _ _ _ _ _ client _ server kind known admitted derives =>
      have within : ∀ name other, loops.add binder.name.name client name = some other →
          Shows places other := by
        intro name other bound
        by_cases same : binder.name.name = name
        · subst same
          rw [Known.add_self] at bound
          exact Option.some.inj bound ▸ fits.groups _ _ known
        · rw [Known.add_of_ne _ _ same] at bound
          exact looped _ _ bound
      have added : Declared (context.add binder.name.name .client) := declared.add _ nofun
      obtain ⟨kept, flows⟩ := StmtDerives.flows_allowed fits within added body real.2 derives
      exact ⟨kept.drop _, flows⟩
  | returns value span =>
    cases derives with
    | returnsNothing void =>
      refine ⟨declared, ?_⟩
      rw [stmtFlows, List.forall_mem_cons, void]
      exact ⟨.exact, nofun⟩
    | returns derives same =>
      refine ⟨declared, ?_⟩
      rw [stmtFlows, List.forall_mem_cons, ← same]
      exact ⟨.exact, (ExprDerives.flows_allowed fits looped declared _ derives).2⟩
  | block body span =>
    cases derives with
    | block derive => exact StmtsDerive.flows_allowed fits looped declared body real derive
termination_by structural stmt

theorem StmtsDerive.flows_allowed (fits : Fits places setting) {loops : Known Interface} {context after : Known Ty}
    (looped : ∀ name client, loops name = some client → Shows places client)
    (declared : Declared context) (stmts : List Stmt) (real : .none ∉ allDeclaredTypes stmts)
    {typed : List Typed.Stmt}
    (derive : StmtsDerive options setting loops context stmts typed after) :
    Declared after ∧ ∀ flow ∈ stmtsFlows places setting.current.returnType context stmts typed,
      flow.Allowed := by
  cases stmts with
  | nil =>
    cases derive
    exact ⟨declared, nofun⟩
  | cons first rest =>
    rw [allDeclaredTypes, List.mem_append, not_or] at real
    cases derive with
    | cons derives others =>
      obtain ⟨middle, flowsFirst⟩ := StmtDerives.flows_allowed fits looped declared first real.1 derives
      obtain ⟨kept, flowsRest⟩ := StmtsDerive.flows_allowed fits looped middle rest real.2 others
      rw [stmtsFlows, StmtDerives.declared_eq first derives, List.forall_mem_append]
      exact ⟨kept, flowsFirst, flowsRest⟩
termination_by structural stmts

end
end

/-- Functions before another of its part see what it sees, if they see their own part first. -/
theorem Fits.of_prefix {places : Places} {setting earlier : Setting} (fits : Fits places setting)
    (holdings : earlier.holdings = setting.holdings)
    (functions : earlier.functions <+: setting.functions) : Fits places earlier := by
  obtain ⟨owner, holds, known, current⟩ := earlier
  cases holdings
  refine ⟨fits.tunnels, ?_, fits.groups⟩
  intro name signature found
  obtain ⟨rest, all⟩ := functions
  apply fits.functions name signature
  rw [← all, find?, List.find?_append]
  rw [find?] at found
  rw [found, Option.some_or]

theorem FunctionDerives.flows_allowed {options : Options} {owner : String} {holdings : Holdings}
    {before : List Function} {function : Function} {typed : Typed.Function} {places : Places}
    (fits : Fits places (.of owner holdings before function))
    (real : .none ∉ function.declaredTypes)
    (derives : FunctionDerives options owner holdings before function typed) :
    ∀ flow ∈ functionFlows places function typed, flow.Allowed := by
  obtain ⟨after, body⟩ := derives.body
  have parameters := derives.parameters.eq_map fun _ _ _ derives => derives.result
  have result : typed.returnType = function.returnType := congrArg Prod.fst derives.result
  simp only [Function.declaredTypes, List.mem_cons, List.mem_append, List.mem_map, not_or,
    not_exists, not_and] at real
  obtain ⟨-, declared, inner⟩ := real
  have known : Declared (seeded function.parameters) := .seeded declared
  rw [functionFlows, parameters, result, List.foldl_map]
  have unbound : ∀ name client, (Known.nothing : Known Interface) name = some client →
      Shows places client := by
    intro name signature bound
    simp [Known.nothing] at bound
  exact (StmtsDerive.flows_allowed fits unbound known _ inner body).2

theorem functionsFlows_allowed {options : Options} {owner : String} {holdings : Holdings}
    {current : Signature} {all before functions : List Function} {typed : List Typed.Function}
    {places : Places} (fits : Fits places ⟨owner, holdings, all.map Function.signature, current⟩)
    (whole : all = before ++ functions)
    (real : ∀ function ∈ functions, .none ∉ function.declaredTypes)
    (derive : InTurn (FunctionDerives options owner holdings) before functions typed) :
    ∀ flow ∈ functionsFlows places functions typed, flow.Allowed := by
  induction functions generalizing before typed with
  | nil =>
    cases derive
    nofun
  | cons function rest ih =>
    cases derive with
    | cons first others =>
      rw [List.forall_mem_cons] at real
      have earlier : before ++ [function] <+: all := ⟨rest, by simp [whole]⟩
      have within : Fits places (.of owner holdings before function) :=
        fits.of_prefix rfl (earlier.map Function.signature)
      rw [functionsFlows, List.forall_mem_append]
      exact ⟨first.flows_allowed within real.1, ih (by simp [whole]) real.2 others⟩

/-- The typed functions take the parameters that the rules give them. -/
theorem parameters?_eq {functions : List Signature} {typed : List Typed.Function}
    (same : typed.map Typed.Function.signature = functions) (name : String) :
    parameters? name typed = (find? name functions).map Signature.parameters := by
  rw [parameters?, ← same, find?, List.find?_map, Option.map_map]
  rfl

/-- A part's functions are as the rules see them. -/
theorem functions_visible {functions : List Function} {typed : List Typed.Function}
    (same : typed.map Typed.Function.signature = functions.map Function.signature)
    (real : ∀ function ∈ functions, .none ∉ function.declaredTypes) {name : String}
    {signature : Signature} (found : find? name (functions.map Function.signature) = some signature) :
    signature.returnType ≠ .none ∧ parameters? name typed = some signature.parameters := by
  constructor
  · obtain ⟨function, member, rfl⟩ := List.mem_map.mp (List.mem_of_find?_eq_some found)
    intro void
    apply real function member
    rw [Function.declaredTypes, ← void]
    exact List.mem_cons_self
  · rw [parameters?_eq same, found]
    rfl

theorem lookup_ne_none {tunnels : List Tunnel} (real : ∀ tunnel ∈ tunnels, tunnel.binder.type ≠ .none)
    (name : String) : (tunnels.map Tunnel.entry).lookup name ≠ some .none := by
  intro found
  obtain ⟨earlier, later, entries, -⟩ := List.lookup_eq_some_iff.mp found
  have member : (name, .none) ∈ tunnels.map Tunnel.entry := by simp [entries]
  obtain ⟨tunnel, declared, entry⟩ := List.mem_map.mp member
  exact real tunnel declared (congrArg Prod.snd entry)

section
variable {options : Options} {client : Client} {typed : Typed.Client}

theorem Client.tunnels_real (real : .none ∉ client.declaredTypes) :
    ∀ tunnel ∈ client.tunnels, tunnel.binder.type ≠ .none := by
  intro tunnel member void
  apply real
  rw [Client.declaredTypes, List.mem_append, List.mem_map]
  exact .inl ⟨tunnel, member, void⟩

theorem Client.functions_real (real : .none ∉ client.declaredTypes) :
    ∀ function ∈ client.functions, .none ∉ function.declaredTypes := by
  intro function member void
  apply real
  rw [Client.declaredTypes, List.mem_append, List.mem_flatMap]
  exact .inr ⟨function, member, void⟩

variable {before : List Client} (derives : ClientDerives options before client typed)
  (real : .none ∉ client.declaredTypes)
include derives real

theorem ClientDerives.fits (current : Signature) :
    Fits ⟨typed.tunnels, typed.functions, []⟩
      ⟨client.name.name, .tunnels (client.tunnels.map Tunnel.entry),
        client.functions.map Function.signature, current⟩ := by
  refine ⟨?_, ?_, nofun⟩
  · intro name type carried
    have known : (client.tunnels.map Tunnel.entry).lookup name = some type := carried
    constructor
    · rintro rfl
      exact lookup_ne_none (Client.tunnels_real real) name known
    · rw [Places.tunnel?, ← Typed.lookup_entry, entries_eq derives.tunnels, known]
  · intro name signature found
    exact functions_visible (signatures_eq derives.functions) (Client.functions_real real) found

end

/-- A client that the server knows is in the typed program as the rules see it. -/
theorem shows_of_interface? {options : Options} {clients : List Client}
    {typed : List Typed.Client} {functions : List Typed.Function}
    (derive : InTurn (ClientDerives options) [] clients typed)
    (real : ∀ client ∈ clients, .none ∉ client.declaredTypes) {name : String} {client : Interface}
    (known : interface? clients name = some client) : Shows ⟨[], functions, typed⟩ client := by
  obtain ⟨source, found, rfl⟩ := Option.map_eq_some_iff.mp known
  have member := List.mem_of_find?_eq_some found
  have named : source.name.name = name := by simpa using List.find?_some found
  rw [interface?_eq_find?, ← interfaces_eq derive, List.find?_map, Option.map_eq_some_iff] at known
  obtain ⟨counterpart, foundTyped, same⟩ := known
  refine ⟨lookup_ne_none (Client.tunnels_real (real source member)), ?_⟩
  intro function signature called
  obtain ⟨returns, visible⟩ := functions_visible (congrArg Interface.functions same)
    (Client.functions_real (real source member)) called
  refine ⟨returns, ?_⟩
  have placed : (Places.mk [] functions typed).client? source.interface.name = some counterpart := by
    rw [Places.client?, Client.interface, named]
    exact foundTyped
  rw [Places.invoked?, placed, Option.bind_some, visible]

theorem group_known {clients : List Client} {groups : List Group} {name : String} {client : Interface}
    (known : (groupEntries clients groups).lookup name = some client) :
    ∃ group ∈ groups, interface? clients group.client.name = some client := by
  obtain ⟨earlier, later, entries, -⟩ := List.lookup_eq_some_iff.mp known
  have member : (name, client) ∈ groupEntries clients groups := by simp [entries]
  obtain ⟨group, present, entry⟩ := List.mem_filterMap.mp member
  obtain ⟨other, declared, same⟩ := Option.map_eq_some_iff.mp entry
  cases same
  exact ⟨group, present, declared⟩

theorem ServerDerives.fits {options : Options} {clients : List Client} {server : Server}
    {typedClients : List Typed.Client} {typed : Typed.Server}
    (derive : InTurn (ClientDerives options) [] clients typedClients)
    (derives : ServerDerives options clients server typed)
    (real : ∀ client ∈ clients, .none ∉ client.declaredTypes)
    (realFunctions : ∀ function ∈ server.functions, .none ∉ function.declaredTypes)
    (current : Signature) :
    Fits ⟨[], typed.functions, typedClients⟩
      ⟨server.name.name, .groups (groupEntries clients server.groups),
        server.functions.map Function.signature, current⟩ := by
  refine ⟨nofun, ?_, ?_⟩
  · intro name signature found
    exact functions_visible (signatures_eq derives.functions) realFunctions found
  · intro name client known
    obtain ⟨group, -, declared⟩ := group_known known
    exact shows_of_interface? derive real declared

theorem clientsFlows_allowed {options : Options} {before clients : List Client}
    {typed : List Typed.Client} (derive : InTurn (ClientDerives options) before clients typed)
    (real : ∀ client ∈ clients, .none ∉ client.declaredTypes) :
    ∀ flow ∈ clientsFlows clients typed, flow.Allowed := by
  induction clients generalizing before typed with
  | nil =>
    cases derive
    nofun
  | cons client rest ih =>
    cases derive with
    | cons first others =>
      rw [List.forall_mem_cons] at real
      rw [clientsFlows, List.forall_mem_append]
      have fits := first.fits real.1 ⟨client.name.name, [], .void⟩
      exact ⟨functionsFlows_allowed fits rfl (Client.functions_real real.1) first.functions,
        ih others real.2⟩

/-- In an accepted program, whose declared types are types, every value has the type of the place it goes to, or is
the public counterpart for a secret parameter. In particular secret values stay in places of their own type. -/
theorem flows_allowed_of_checkProgram {options : Options} {program : Program} {typed : Typed.Program}
    (real : .none ∉ program.declaredTypes) (accepted : checkProgram options program = .ok typed) :
    ∀ flow ∈ program.flows typed,
      flow.Allowed ∧ (flow.value.isSecret → flow.place = some flow.value) := by
  have derives := derives_of_checkProgram accepted
  simp only [Program.declaredTypes, List.mem_append, List.mem_flatMap, not_or, not_exists,
    not_and] at real
  have fits := derives.server.fits derives.clients real.1 real.2 ⟨"", [], .void⟩
  suffices ∀ flow ∈ program.flows typed, flow.Allowed from
    fun flow member => ⟨this flow member, (this flow member).secret⟩
  rw [Program.flows, List.forall_mem_append]
  exact ⟨clientsFlows_allowed derives.clients real.1,
    functionsFlows_allowed fits rfl real.2 derives.server.functions⟩

/-- A client that shares what the server sends to it: a public number goes to a secret parameter, and from there
into a tunnel for secrets. -/
def sharing : Program :=
  let identifier (name : String) : Identifier := ⟨name, .nowhere⟩
  let share : Stmt :=
    .expression (.put (identifier "shares") (.symbol "number" .nowhere) .nowhere .nowhere) .nowhere
  let send : Stmt :=
    .expression (.invoke (identifier "member") (identifier "share") [.int 1 .nowhere] .nowhere .nowhere)
      .nowhere
  let number : Binder := ⟨.sint, identifier "number", .nowhere⟩
  let member : Binder := ⟨.client, identifier "member", .nowhere⟩
  { clients := [⟨identifier "Party", [⟨⟨.sint, identifier "shares", .nowhere⟩, .nowhere⟩],
      [⟨.void, identifier "share", [number], [share], .nowhere⟩], .nowhere⟩]
    server := ⟨identifier "Dealer", [⟨identifier "Party", identifier "parties", .nowhere⟩],
      [⟨.void, identifier "deal", [], [.forEach member (identifier "parties") send .nowhere], .nowhere⟩],
      .nowhere⟩
    span := .nowhere }

theorem flows_allowed_sharing : ∃ typed, checkProgram ⟨false⟩ sharing = .ok typed ∧
    sharing.flows typed = [⟨some .sint, .sint, false⟩, ⟨some .sint, .int, true⟩] ∧
    ∀ flow ∈ sharing.flows typed,
      flow.Allowed ∧ (flow.value.isSecret → flow.place = some flow.value) := by
  refine ⟨_, rfl, rfl, ?_⟩
  exact flows_allowed_of_checkProgram (by decide) (show checkProgram ⟨false⟩ sharing = .ok _ from rfl)

end Multiparty.Typing
