import Multiparty.Proofs.Erasure
import Multiparty.Proofs.Flows
import Multiparty.Proofs.Resolution

/-! What the type of an expression tells about the expression. Where a program declares its types by reserved words, no
expression lacks a type or has the type of a server, only names of tunnels and groups have the types of those, and what
an operator computes is public. -/

namespace Multiparty

theorem Ty.isWord_publicOf {type : Ty} (written : type.isWord) (hidden : type.isSecret) : type.publicOf.isWord := by
  cases type <;> first | rfl | cases hidden

theorem Ty.isWord_of_isTunnelable {type : Ty} (travels : type.isTunnelable) : type.isWord := by
  cases type <;> first | rfl | cases travels

/-- What a client gives back to the server, from its tunnels and its functions. -/
structure Interface.Written (client : Interface) : Prop where
  tunnels : ∀ name carried, client.tunnels.lookup name = some carried → carried.isWord
  functions : ∀ name function, Typing.find? name client.functions = some function → function.returnType.isWord

namespace Typed

/-- The expression is the name of a group, or an `open` around one. -/
def Expr.NamesGroup (groups : List Group) : Expr → Prop
  | .symbol name _ => ∃ group ∈ groups, group.name = name
  | .reveal body _ _ => body.NamesGroup groups
  | _ => False

/-- The expression is the name of a tunnel with values of type `carried`. -/
def Expr.NamesTunnel (tunnels : List Tunnel) (carried : Ty) (expr : Expr) : Prop :=
  ∃ name mark tunnel, expr = .symbol name mark ∧ tunnel? name tunnels = some tunnel ∧ tunnel.type = carried

/-- What the type of an expression in a part tells about it. Only clients have tunnels, and only the server has
groups. -/
structure Expr.Meaningful (party : Party) (expr : Expr) : Prop where
  typed : expr.type ≠ .none
  notServer : expr.type ≠ .server
  tunnel : ∀ carried, expr.type = .tunnel carried → carried.isTunnelable ∧ expr.NamesTunnel party.tunnels carried
  group : expr.type = .group → expr.NamesGroup party.groups
  binary : ∀ operator left right mark, expr = .binary operator left right mark → mark.type.isSecret = false
  not : ∀ operand mark, expr = .not operand mark → mark.type.isSecret = false

end Typed

namespace Typing
open Typed (Party Place)

theorem Opens.words {names : List Identifier} {context opened : Known Ty} (opens : Opens context names opened)
    (words : context.Each (·.isWord)) : opened.Each (·.isWord) := by
  induction opens with
  | nil => exact words
  | cons found hidden _ ih => exact ih (words.add _ (Ty.isWord_publicOf (words _ _ found) hidden))

theorem seeded_words {parameters : List Binder} (words : ∀ binder ∈ parameters, binder.type.isWord) :
    (seeded parameters).Each (·.isWord) := by
  suffices ∀ known : Known Ty, known.Each (·.isWord) → (parameters.foldl (fun known binder =>
      known.add binder.name.name binder.type) known).Each (·.isWord) from this _ .nothing
  induction parameters with
  | nil => exact fun _ known => known
  | cons first rest ih =>
    intro known written
    rw [List.forall_mem_cons] at words
    exact ih words.2 _ (written.add _ words.1)

structure Setting.Written (setting : Setting) : Prop where
  tunnels : ∀ name carried, setting.tunnel? name = some carried → carried.isWord
  functions : ∀ name function, find? name setting.functions = some function → function.returnType.isWord
  groups : ∀ name client, setting.group? name = some client → client.Written

/-- Where an expression has its type from. -/
inductive Yields (setting : Setting) : Typed.Expr → Prop
  | word {expr} : expr.type.isWord → Yields setting expr
  | tunnel {name carried span} : setting.tunnel? name = some carried →
    Yields setting (.symbol name ⟨.tunnel carried, span⟩)
  | group {name client span} : setting.group? name = some client → Yields setting (.symbol name ⟨.group, span⟩)
  | reveal {body names span} : setting.isServer → Yields setting body →
    Yields setting (.reveal body names ⟨body.type, span⟩)

theorem Setting.tunnel?_of_isServer {setting : Setting} (server : setting.isServer) (name : String) :
    setting.tunnel? name = none := by
  obtain ⟨owner, holdings, functions, current⟩ := setting
  cases holdings with
  | tunnels => cases server
  | groups => rfl

namespace Yields
variable {setting : Setting} {expr : Typed.Expr}

theorem typed (yields : Yields setting expr) : expr.type ≠ .none ∧ expr.type ≠ .server := by
  induction yields with
  | @word expr written =>
    constructor
    all_goals
      intro same
      rw [same] at written
      cases written
  | tunnel | group => exact ⟨nofun, nofun⟩
  | reveal _ _ ih => exact ih

/-- A tunnel has its name only. No name is opened in a client, so an `open` cannot hide one. -/
theorem tunnel_symbol (yields : Yields setting expr) {carried : Ty} (same : expr.type = .tunnel carried) :
    ∃ name mark, expr = .symbol name mark ∧ setting.tunnel? name = some carried := by
  induction yields with
  | word written =>
    rw [same] at written
    cases written
  | tunnel found =>
    cases same
    exact ⟨_, _, rfl, found⟩
  | group => cases same
  | reveal server _ ih =>
    obtain ⟨name, _, -, found⟩ := ih same
    rw [setting.tunnel?_of_isServer server] at found
    cases found

theorem namesGroup {groups : List Typed.Group}
    (listed : ∀ name client, setting.group? name = some client → ∃ group ∈ groups, group.name = name)
    (yields : Yields setting expr) (same : expr.type = .group) : expr.NamesGroup groups := by
  induction yields with
  | word written =>
    rw [same] at written
    cases written
  | tunnel => cases same
  | group found => exact listed _ _ found
  | reveal _ _ ih => exact ih same

end Yields

/-- What an operator gives is public, whatever its operands are. -/
theorem Operates.isSecret_eq {operator : Operator} {left right type : Ty}
    (operates : Operates operator left right type) : type.isSecret = false := by
  cases operates with
  | operands takes => cases takes <;> rfl
  | equality => rfl

theorem Operates.isWord {operator : Operator} {left right type : Ty}
    (operates : Operates operator left right type) : type.isWord := by
  cases operates with
  | operands takes => cases takes <;> rfl
  | equality => rfl

section
variable {setting : Setting} {loops : Known Interface}

theorem yields_symbol {context : Known Ty} (written : context.Each (·.isWord)) {name : String}
    {type : Ty} (found : setting.type? context name = some type) (span : Span) :
    Yields setting (.symbol name ⟨type, span⟩) := by
  rw [Setting.type?] at found
  split at found
  next grouped =>
    cases found
    exact .group grouped
  next carried =>
    cases found
    exact .tunnel carried
  next => exact .word (written name type found)

mutual

/-- An expression and all expressions inside it have their types from what a program declares. -/
theorem ExprDerives.yields (offered : setting.Written)
    (looped : loops.Each Interface.Written) {context : Known Ty}
    (written : context.Each (·.isWord)) (expr : Expr) {typed : Typed.Expr}
    (derives : ExprDerives setting loops context expr typed) (opened : List String) :
    Yields setting typed ∧ ∀ inner ∈ typed.within opened, Yields setting inner.2 := by
  cases expr with
  | int | bool | string | readInt =>
    cases derives
    exact ⟨.word rfl, nofun⟩
  | symbol name span =>
    cases derives with
    | symbol found => exact ⟨yields_symbol written found span, nofun⟩
  | binary operator left right span =>
    cases derives with
    | binary first second operates =>
      rw [Typed.Expr.within, List.forall_mem_append, List.forall_mem_cons, List.forall_mem_cons]
      exact ⟨.word operates.isWord, ExprDerives.yields offered looped written left first opened,
        ExprDerives.yields offered looped written right second opened⟩
  | not operand span =>
    cases derives with
    | not first truth =>
      rw [Typed.Expr.within, List.forall_mem_cons]
      exact ⟨.word rfl, ExprDerives.yields offered looped written operand first opened⟩
  | call called arguments callSpan span =>
    cases derives with
    | call found derive =>
      exact ⟨.word (offered.functions _ _ found),
        ArgumentsDerive.yields offered looped written arguments derive opened⟩
  | invoke target called arguments callSpan span =>
    cases derives with
    | invoke server bound found derive =>
      exact ⟨.word ((looped _ _ bound).functions _ _ found),
        ArgumentsDerive.yields offered looped written arguments derive opened⟩
  | put tunnel value callSpan span =>
    cases derives with
    | put client carried first =>
      rw [Typed.Expr.within, List.forall_mem_cons]
      exact ⟨.word rfl, ExprDerives.yields offered looped written value first opened⟩
  | read tunnel reading callSpan span =>
    cases derives with
    | read client carried => exact ⟨.word (offered.tunnels _ _ carried), nofun⟩
  | remotePut => cases derives
  | remoteRead target tunnel reading callSpan span =>
    cases derives with
    | remoteRead server bound carried => exact ⟨.word ((looped _ _ bound).tunnels _ _ carried), nofun⟩
  | reveal body names span =>
    cases derives with
    | reveal server opens first =>
      obtain ⟨yields, inside⟩ := ExprDerives.yields offered looped (opens.words written) body first
        (names.map Identifier.name ++ opened)
      rw [Typed.Expr.within, List.forall_mem_cons]
      exact ⟨.reveal server yields, yields, inside⟩
termination_by structural expr

theorem ArgumentsDerive.yields (offered : setting.Written)
    (looped : loops.Each Interface.Written) {context : Known Ty}
    (written : context.Each (·.isWord)) (arguments : List Expr) {parameters : List Ty} {typed : List Typed.Expr}
    (derive : ArgumentsDerive setting loops context parameters arguments typed) (opened : List String) :
    ∀ inner ∈ Typed.argumentsWithin opened typed, Yields setting inner.2 := by
  cases arguments with
  | nil =>
    cases derive
    nofun
  | cons argument arguments =>
    cases derive with
    | cons first accepts rest =>
      rw [Typed.argumentsWithin, List.forall_mem_append, List.forall_mem_cons]
      exact ⟨ExprDerives.yields offered looped written argument first opened,
        ArgumentsDerive.yields offered looped written arguments rest opened⟩
termination_by structural arguments

end

theorem ExprDerives.occurrences_yield (offered : setting.Written)
    (looped : loops.Each Interface.Written) {context : Known Ty}
    (written : context.Each (·.isWord)) {expr : Expr} {typed : Typed.Expr}
    (derives : ExprDerives setting loops context expr typed) (place : Place) :
    ∀ site ∈ Typed.valueOccurrences place typed, Yields setting site.expr := by
  rw [Typed.valueOccurrences, List.forall_mem_map, List.forall_mem_cons]
  exact ExprDerives.yields offered looped written expr derives []

end

/-- The expressions of these statements have their types from what a program declares. -/
def AllYield (setting : Setting) (statements : List (Place × Typed.Stmt)) : Prop :=
  ∀ statement ∈ statements, ∀ value ∈ statement.2.values statement.1,
    ∀ site ∈ Typed.valueOccurrences value.1 value.2, Yields setting site.expr

section
variable {setting : Setting} {first second : List (Place × Typed.Stmt)} {place : Place} {stmt : Typed.Stmt}

theorem AllYield.append (yieldFirst : AllYield setting first) (yieldSecond : AllYield setting second) :
    AllYield setting (first ++ second) :=
  List.forall_mem_append.mpr ⟨yieldFirst, yieldSecond⟩

theorem AllYield.cons {value : Typed.Expr} {inner : Place} (values : stmt.values place = [(inner, value)])
    (yield : ∀ site ∈ Typed.valueOccurrences inner value, Yields setting site.expr)
    (others : AllYield setting first) : AllYield setting ((place, stmt) :: first) := by
  refine List.forall_mem_cons.mpr ⟨?_, others⟩
  rw [values, List.forall_mem_singleton]
  exact yield

end

section
variable {options : Options} {setting : Setting}

mutual

/-- A statement leaves only variables behind that reserved words declare. -/
theorem StmtDerives.yields (offered : setting.Written) {loops : Known Interface}
    (looped : loops.Each Interface.Written) {context after : Known Ty}
    (written : context.Each (·.isWord)) (stmt : Stmt) (words : ∀ type ∈ stmt.declaredTypes, type.isWord)
    {typed : Typed.Stmt} (derives : StmtDerives options setting loops context stmt typed after) (place : Place) :
    after.Each (·.isWord) ∧ AllYield setting ((place, typed) :: typed.within place) := by
  cases stmt with
  | declaration binder initial span =>
    rw [Stmt.declaredTypes, List.forall_mem_singleton] at words
    have added := written.add binder.name.name words
    cases derives with
    | declaration => exact ⟨added, List.forall_mem_singleton.mpr nofun⟩
    | initialised admitted assigns =>
      exact ⟨added, .cons rfl (assigns.value.occurrences_yield offered looped added _) nofun⟩
  | assign assignment span =>
    cases derives with
    | assign assigns => exact ⟨written, .cons rfl (assigns.value.occurrences_yield offered looped written _) nofun⟩
  | expression value span =>
    cases derives with
    | expression derives => exact ⟨written, .cons rfl (derives.occurrences_yield offered looped written _) nofun⟩
  | display value span =>
    cases derives with
    | display derives shown => exact ⟨written, .cons rfl (derives.occurrences_yield offered looped written _) nofun⟩
  | ifThen condition body span =>
    cases derives with
    | ifThen guards derives =>
      obtain ⟨kept, inside⟩ := StmtDerives.yields offered looped written body words derives place
      exact ⟨kept, .cons rfl (guards.derives.occurrences_yield offered looped written _) inside⟩
  | ifElse condition body otherwise span =>
    rw [Stmt.declaredTypes, List.forall_mem_append] at words
    cases derives with
    | @ifElse _ _ _ _ _ _ _ _ _ typedBody _ guards first second =>
      obtain ⟨middle, insideFirst⟩ := StmtDerives.yields offered looped written body words.1 first place
      obtain ⟨kept, insideSecond⟩ := StmtDerives.yields offered looped middle otherwise words.2 second
        (place.declaring typedBody.declarations)
      exact ⟨kept, .cons rfl (guards.derives.occurrences_yield offered looped written _)
        (insideFirst.append insideSecond)⟩
  | whileLoop condition body span =>
    cases derives with
    | whileLoop guards derives =>
      obtain ⟨kept, inside⟩ := StmtDerives.yields offered looped written body words derives place
      exact ⟨kept, .cons rfl (guards.derives.occurrences_yield offered looped written _) inside⟩
  | forEach binder group body span =>
    rw [Stmt.declaredTypes, List.forall_mem_cons] at words
    cases derives with
    | @forEach _ _ _ _ _ _ _ client typedBody server kind found admitted derives =>
      obtain ⟨kept, inside⟩ := StmtDerives.yields offered (looped.add _ (offered.groups _ _ found))
        (written.add binder.name.name rfl) body words.2 derives (place.looping ⟨binder.name.name, group.name, client.name⟩)
      exact ⟨kept.drop _, List.forall_mem_cons.mpr ⟨nofun, inside⟩⟩
  | returns value span =>
    cases derives with
    | returnsNothing => exact ⟨written, List.forall_mem_singleton.mpr nofun⟩
    | returns derives same => exact ⟨written, .cons rfl (derives.occurrences_yield offered looped written _) nofun⟩
  | block body span =>
    cases derives with
    | block derive =>
      obtain ⟨kept, inside⟩ := StmtsDerive.yields offered looped written body words derive place
      exact ⟨kept, List.forall_mem_cons.mpr ⟨nofun, inside⟩⟩
termination_by structural stmt

theorem StmtsDerive.yields (offered : setting.Written) {loops : Known Interface}
    (looped : loops.Each Interface.Written) {context after : Known Ty}
    (written : context.Each (·.isWord)) (stmts : List Stmt) (words : ∀ type ∈ allDeclaredTypes stmts, type.isWord)
    {typed : List Typed.Stmt} (derive : StmtsDerive options setting loops context stmts typed after)
    (place : Place) : after.Each (·.isWord) ∧ AllYield setting (Typed.allWithin place typed) := by
  cases stmts with
  | nil =>
    cases derive
    exact ⟨written, nofun⟩
  | cons first rest =>
    rw [allDeclaredTypes, List.forall_mem_append] at words
    cases derive with
    | @cons _ _ _ _ _ _ typedFirst _ derives others =>
      obtain ⟨middle, insideFirst⟩ := StmtDerives.yields offered looped written first words.1 derives place
      obtain ⟨kept, insideRest⟩ := StmtsDerive.yields offered looped middle rest words.2 others
        (place.declaring typedFirst.declarations)
      exact ⟨kept, insideFirst.append insideRest⟩
termination_by structural stmts

end

end

theorem FunctionDerives.yields {options : Options} {owner : String} {holdings : Holdings} {before : List Function}
    {function : Function} {typed : Typed.Function}
    (derives : FunctionDerives options owner holdings before function typed)
    (offered : (Setting.of owner holdings before function).Written)
    (words : ∀ type ∈ function.declaredTypes, type.isWord) :
    ∀ site ∈ typed.occurrences, Yields (.of owner holdings before function) site.expr := by
  rw [Function.declaredTypes, List.forall_mem_cons, List.forall_mem_append, List.forall_mem_map] at words
  obtain ⟨-, declared, inner⟩ := words
  obtain ⟨after, body⟩ := derives.body
  obtain ⟨-, inside⟩ := StmtsDerive.yields offered .nothing (seeded_words declared) _ inner body typed.place
  intro site among
  obtain ⟨statement, within, among⟩ := List.mem_flatMap.mp among
  obtain ⟨value, of, among⟩ := List.mem_flatMap.mp among
  exact inside statement within value of site among

theorem ExprPlaced.binary_public {setting : Setting} {place : Place} {opened : List String} {operator : Operator}
    {left right : Typed.Expr} {mark : Typed.Mark}
    (placed : ExprPlaced setting ⟨place, opened, .binary operator left right mark⟩) :
    mark.type.isSecret = false := by
  obtain ⟨_, _, -, _, _, -, derives⟩ := placed
  cases derives with
  | binary _ _ operates => exact operates.isSecret_eq

theorem ExprPlaced.not_public {setting : Setting} {place : Place} {opened : List String} {operand : Typed.Expr}
    {mark : Typed.Mark} (placed : ExprPlaced setting ⟨place, opened, .not operand mark⟩) :
    mark.type.isSecret = false := by
  obtain ⟨_, _, -, _, _, -, derives⟩ := placed
  cases derives with
  | not => rfl

theorem declaredTypes_subset {program : Program} {function : Function} (member : function ∈ program.functions) :
    function.declaredTypes ⊆ program.declaredTypes := by
  intro type declared
  rw [Program.declaredTypes, List.mem_append, List.mem_flatMap, List.mem_flatMap]
  obtain within | within := List.mem_append.mp member
  · obtain ⟨client, among, within⟩ := List.mem_flatMap.mp within
    refine .inl ⟨client, among, ?_⟩
    rw [Client.declaredTypes, List.mem_append, List.mem_flatMap]
    exact .inr ⟨function, within, declared⟩
  · exact .inr ⟨function, within, declared⟩

section
variable {options : Options} {program : Program} {typed : Typed.Program}
  (derives : ProgramDerives options program typed)
include derives

theorem ProgramDerives.tunnels_carry {party : Party} (member : party ∈ typed.parties) :
    ∀ tunnel ∈ party.tunnels, tunnel.type.isTunnelable := by
  obtain ⟨client, within, rfl⟩ | rfl := Typed.Program.mem_parties.mp member
  · intro tunnel among
    obtain ⟨source, -, _, derived⟩ := derives.clients.counterpart within
    obtain ⟨declared, -, _, carries⟩ := derived.tunnels.counterpart among
    rw [carries.result]
    exact carries.carries
  · exact List.forall_mem_nil _

variable (words : ∀ type ∈ program.declaredTypes, type.isWord)
include words

theorem ProgramDerives.returns_written {party : Party} (member : party ∈ typed.parties) :
    ∀ function ∈ party.functions, function.returnType.isWord := by
  intro function among
  obtain ⟨before, after, whole⟩ := List.append_of_mem among
  obtain ⟨_, _, _, source, declared, derived, -⟩ := derives.function_derives member whole
  have returned : function.returnType = source.returnType :=
    congrArg Signature.returnType derived.signature_eq
  rw [returned]
  exact words _ (declaredTypes_subset declared List.mem_cons_self)

theorem ProgramDerives.interface_written {name : String} {client : Interface}
    (known : typed.interface? name = some client) : client.Written := by
  obtain ⟨owner, found, rfl, -⟩ := Typed.client?_of_interface known
  have member : .client owner ∈ typed.parties :=
    Typed.Program.mem_parties.mpr (.inl ⟨owner, List.mem_of_find?_eq_some found, rfl⟩)
  constructor
  · intro name carried carries
    obtain ⟨carrier, present, rfl⟩ := Typed.tunnel?_of_entry carries
    exact Ty.isWord_of_isTunnelable (derives.tunnels_carry member _ (List.mem_of_find?_eq_some present))
  · intro name signature declared
    obtain ⟨callee, present, rfl⟩ := Typed.function?_of_signature declared
    exact derives.returns_written words member _ (List.mem_of_find?_eq_some present)

/-- Whatever a function refers to has a type that a reserved word names. -/
theorem ProgramDerives.setting_written {party : Party} (member : party ∈ typed.parties)
    {before after : List Typed.Function} {function : Typed.Function}
    (whole : party.functions = before ++ function :: after) :
    (party.setting typed before function).Written := by
  constructor
  · intro name carried carries
    obtain ⟨carrier, present, rfl⟩ := tunnel?_resolved carries
    exact Ty.isWord_of_isTunnelable (derives.tunnels_carry member _ (List.mem_of_find?_eq_some present))
  · intro name signature declared
    obtain ⟨callee, present, rfl⟩ := Typed.function?_of_signature declared
    apply derives.returns_written words member
    rw [whole, List.append_cons]
    exact List.mem_append_left _ (List.mem_of_find?_eq_some present)
  · intro name client found
    obtain ⟨members, -, made⟩ := group?_resolved (derives.groups_declared member) found
    exact derives.interface_written words made

theorem ProgramDerives.meaningful {party : Party} (member : party ∈ typed.parties) :
    ∀ function ∈ party.functions, ∀ site ∈ function.occurrences, site.expr.Meaningful party := by
  intro function among site within
  obtain ⟨before, after, whole⟩ := List.append_of_mem among
  have offered := derives.setting_written words member whole
  have placed := (derives.placed member whole).2 site within
  obtain ⟨_, _, _, source, declared, derived, same⟩ := derives.function_derives member whole
  rw [← same] at offered
  have yields := derived.yields offered (fun type declares => words type (declaredTypes_subset declared declares))
    site within
  rw [same] at yields
  refine ⟨yields.typed.1, yields.typed.2, ?_, yields.namesGroup ?_, ?_, ?_⟩
  · intro carried tunnel
    obtain ⟨name, mark, symbol, found⟩ := yields.tunnel_symbol tunnel
    obtain ⟨carrier, present, rfl⟩ := tunnel?_resolved found
    exact ⟨derives.tunnels_carry member _ (List.mem_of_find?_eq_some present), name, mark, carrier, symbol,
      present, rfl⟩
  · intro name client found
    obtain ⟨members, present, -⟩ := group?_resolved (derives.groups_declared member) found
    exact ⟨members, List.mem_of_find?_eq_some present, by simpa using List.find?_some present⟩
  · obtain ⟨place, opened, expr⟩ := site
    rintro operator left right mark rfl
    exact placed.binary_public
  · obtain ⟨place, opened, expr⟩ := site
    rintro operand mark rfl
    exact placed.not_public

end

/-- Where the types that a program declares are named by reserved words, the types of all expressions in the typed
program tell what they should. -/
theorem meaningful_of_checkProgram {options : Options} {program : Program} {typed : Typed.Program}
    (words : ∀ type ∈ program.declaredTypes, type.isWord)
    (accepted : checkProgram options program = .ok typed) :
    ∀ party ∈ typed.parties, ∀ function ∈ party.functions, ∀ site ∈ function.occurrences,
      site.expr.Meaningful party :=
  fun _ => (derives_of_checkProgram accepted).meaningful words

/-- A client that compares a tunnel with itself, and a server that names a group within an `open` and compares secrets
outside of any. -/
def shuffling : Program :=
  let identifier (name : String) : Identifier := ⟨name, .nowhere⟩
  let binder (type : Ty) (name : String) : Binder := ⟨type, identifier name, .nowhere⟩
  let use (name : String) : Expr := .symbol name .nowhere
  let same (name : String) : Expr := .binary .equal (use name) (use name) .nowhere
  let clients : Stmt := .display (.reveal (use "players") [identifier "card"] .nowhere) .nowhere
  let compare : Stmt := .display (.not (same "card") .nowhere) .nowhere
  { clients := [⟨identifier "Player", [⟨binder .sint "cards", .nowhere⟩],
      [⟨.void, identifier "play", [], [.display (same "cards") .nowhere], .nowhere⟩], .nowhere⟩]
    server := ⟨identifier "Dealer", [⟨identifier "Player", identifier "players", .nowhere⟩],
      [⟨.void, identifier "shuffle", [binder .sint "card"], [clients, compare], .nowhere⟩], .nowhere⟩
    span := .nowhere }

theorem meaningful_shuffling : ∃ typed, checkProgram ⟨false⟩ shuffling = .ok typed ∧
    typed.parties.flatMap (fun party => (party.functions.flatMap Typed.Function.occurrences).map
        fun site => site.expr.type) =
      [.bool, .tunnel .sint, .tunnel .sint, .group, .group, .bool, .bool, .sint, .sint] ∧
    (∀ type ∈ shuffling.declaredTypes, type.isWord) ∧
    ∀ party ∈ typed.parties, ∀ function ∈ party.functions, ∀ site ∈ function.occurrences,
      site.expr.Meaningful party := by
  have words : ∀ type ∈ shuffling.declaredTypes, type.isWord := by decide
  refine ⟨_, rfl, rfl, words, ?_⟩
  exact meaningful_of_checkProgram words (show checkProgram ⟨false⟩ shuffling = .ok _ from rfl)

end Typing
end Multiparty
