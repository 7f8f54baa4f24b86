import Multiparty.Typing.Program

/-! The rules of the type system, as judgements over contexts that nothing ever changes back. An expression is
typed under the types of the variables and under the clients that the loop variables around it stand for; a
statement also yields the types of the variables after it. -/

namespace Multiparty

/-- What the rest of a part, and the server, see of a function. -/
structure Signature where
  name : String
  parameters : List Ty
  returnType : Ty
deriving DecidableEq

def Function.signature (function : Function) : Signature :=
  ⟨function.name.name, function.parameters.map Binder.type, function.returnType⟩

/-- What the server sees of a client. -/
structure Interface where
  name : String
  tunnels : List (String × Ty)
  functions : List Signature
deriving DecidableEq

def Tunnel.entry (tunnel : Tunnel) : String × Ty :=
  (tunnel.binder.name.name, tunnel.binder.type)

def Client.interface (client : Client) : Interface :=
  ⟨client.name.name, client.tunnels.map Tunnel.entry, client.functions.map Function.signature⟩

namespace Typing

def find? (name : String) (functions : List Signature) : Option Signature :=
  functions.find? fun function => function.name = name

/-- What is known of each name. -/
def Known (α : Type) : Type :=
  String → Option α

namespace Known
variable {α : Type}

def nothing : Known α :=
  fun _ => none

def add (name : String) (value : α) (known : Known α) : Known α :=
  fun other => if name = other then some value else known other

def drop (name : String) (known : Known α) : Known α :=
  fun other => if name = other then none else known other

@[simp] theorem add_self (known : Known α) (name : String) (value : α) :
    known.add name value name = some value := by
  simp [add]

theorem add_of_ne (known : Known α) {name other : String} (value : α) (different : name ≠ other) :
    known.add name value other = known other := by
  simp [add, different]

def Each (holds : α → Prop) (known : Known α) : Prop :=
  ∀ name value, known name = some value → holds value

namespace Each
variable {holds : α → Prop} {known : Known α}

theorem nothing : (Known.nothing : Known α).Each holds :=
  fun _ _ => nofun

theorem add (each : known.Each holds) (name : String) {value : α} (new : holds value) :
    (known.add name value).Each holds := by
  intro other found bound
  by_cases same : name = other
  · subst same
    rw [add_self] at bound
    exact Option.some.inj bound ▸ new
  · rw [add_of_ne _ _ same] at bound
    exact each other found bound

theorem drop (each : known.Each holds) (name : String) : (known.drop name).Each holds := by
  intro other value bound
  rw [Known.drop] at bound
  split at bound
  · cases bound
  · exact each other value bound

end Each
end Known

/-- What a part holds beside its functions. The server knows each group by the client it is made of. -/
inductive Holdings
  | tunnels (types : List (String × Ty))
  | groups (clients : List (String × Interface))

/-- Where a function stands. `functions` are those of its part up to and including itself. -/
structure Setting where
  owner : String
  holdings : Holdings
  functions : List Signature
  current : Signature

namespace Setting

def isServer (setting : Setting) : Bool :=
  match setting.holdings with
  | .tunnels _ => false
  | .groups _ => true

def tunnel? (name : String) (setting : Setting) : Option Ty :=
  match setting.holdings with
  | .tunnels types => types.lookup name
  | .groups _ => none

def group? (name : String) (setting : Setting) : Option Interface :=
  match setting.holdings with
  | .tunnels _ => none
  | .groups clients => clients.lookup name

/-- The type of a name in an expression: groups and tunnels come before variables. -/
def type? (setting : Setting) (context : Known Ty) (name : String) : Option Ty :=
  match setting.group? name, setting.tunnel? name with
  | some _, _ => some .group
  | none, some carried => some (.tunnel carried)
  | none, none => context name

/-- Whether a variable of that name may be declared. -/
structure Admits (setting : Setting) (context : Known Ty) (name : String) : Prop where
  noTunnel : setting.tunnel? name = none
  noGroup : setting.group? name = none
  unknown : context name = none

end Setting

/-- The type that an operator asks of both operands, and the type it gives. -/
inductive Takes : Operator → Ty → Ty → Prop
  | arithmetic {operator : Operator} : operator.isArithmetic → Takes operator .int .int
  | logical {operator : Operator} : operator.isLogical → Takes operator .bool .bool
  | less : Takes .less .int .bool
  | greater : Takes .greater .int .bool

inductive Operates (operator : Operator) (left right : Ty) : Ty → Prop
  | operands {operand result : Ty} : Takes operator operand result → left.compatible operand →
    right.compatible operand → Operates operator left right result
  | equality : operator = .equal → left.compatible right → Operates operator left right .bool

/-- The variables in `names` become public one after the other. -/
inductive Opens : Known Ty → List Identifier → Known Ty → Prop
  | nil {context : Known Ty} : Opens context [] context
  | cons {context opened : Known Ty} {first : Identifier} {rest : List Identifier} {type : Ty} :
    context first.name = some type → type.isSecret →
    Opens (context.add first.name type.publicOf) rest opened → Opens context (first :: rest) opened

mutual

inductive ExprDerives (setting : Setting) (loops : Known Interface) :
    Known Ty → Expr → Typed.Expr → Prop
  | int {context value span} : ExprDerives setting loops context (.int value span) (.int value ⟨.int, span⟩)
  | bool {context value span} :
    ExprDerives setting loops context (.bool value span) (.bool value ⟨.bool, span⟩)
  | string {context value span} :
    ExprDerives setting loops context (.string value span) (.string value ⟨.string, span⟩)
  | symbol {context name span type} : setting.type? context name = some type →
    ExprDerives setting loops context (.symbol name span) (.symbol name ⟨type, span⟩)
  | binary {context operator left right span typedLeft typedRight type} :
    ExprDerives setting loops context left typedLeft →
    ExprDerives setting loops context right typedRight →
    Operates operator typedLeft.type typedRight.type type →
    ExprDerives setting loops context (.binary operator left right span)
      (.binary operator typedLeft typedRight ⟨type, span⟩)
  | not {context operand span typed} : ExprDerives setting loops context operand typed →
    typed.type.compatible .bool →
    ExprDerives setting loops context (.not operand span) (.not typed ⟨.bool, span⟩)
  | call {context called arguments callSpan span typed function} :
    find? called.name setting.functions = some function →
    ArgumentsDerive setting loops context function.parameters arguments typed →
    ExprDerives setting loops context (.call called arguments callSpan span)
      (.call called.name typed ⟨function.returnType, span⟩)
  | invoke {context target called arguments callSpan span typed client function} : setting.isServer →
    loops target.name = some client → find? called.name client.functions = some function →
    ArgumentsDerive setting loops context function.parameters arguments typed →
    ExprDerives setting loops context (.invoke target called arguments callSpan span)
      (.invoke target.name client.name called.name typed ⟨function.returnType, span⟩)
  | put {context tunnel value callSpan span typed} : setting.isServer = false →
    setting.tunnel? tunnel.name = some typed.type → ExprDerives setting loops context value typed →
    ExprDerives setting loops context (.put tunnel value callSpan span)
      (.put tunnel.name typed ⟨.void, span⟩)
  | read {context tunnel reading callSpan span carried} : setting.isServer = false →
    setting.tunnel? tunnel.name = some carried →
    ExprDerives setting loops context (.read tunnel reading callSpan span)
      (.read tunnel.name reading ⟨carried, span⟩)
  | remoteRead {context target tunnel reading callSpan span client carried} : setting.isServer →
    loops target.name = some client → client.tunnels.lookup tunnel.name = some carried →
    ExprDerives setting loops context (.remoteRead target tunnel reading callSpan span)
      (.remoteRead target.name client.name tunnel.name reading ⟨carried, span⟩)
  | reveal {context opened body names span typed} : setting.isServer → Opens context names opened →
    ExprDerives setting loops opened body typed →
    ExprDerives setting loops context (.reveal body names span)
      (.reveal typed (names.map Identifier.name) ⟨typed.type, span⟩)
  | readInt {context span} :
    ExprDerives setting loops context (.readInt span) (.readInt ⟨.sint, span⟩)

/-- A secret parameter takes a public argument, never the other way round. -/
inductive ArgumentsDerive (setting : Setting) (loops : Known Interface) :
    Known Ty → List Ty → List Expr → List Typed.Expr → Prop
  | nil {context} : ArgumentsDerive setting loops context [] [] []
  | cons {context parameter parameters argument arguments typed others} :
    ExprDerives setting loops context argument typed → parameter.compatible typed.type →
    ArgumentsDerive setting loops context parameters arguments others →
    ArgumentsDerive setting loops context (parameter :: parameters) (argument :: arguments)
      (typed :: others)

end

theorem ArgumentsDerive.length_eq {setting : Setting} {loops : Known Interface} {context : Known Ty}
    {parameters : List Ty} {arguments : List Expr} {typed : List Typed.Expr}
    (derive : ArgumentsDerive setting loops context parameters arguments typed) :
    parameters.length = arguments.length := by
  induction arguments generalizing parameters typed with
  | nil =>
    cases derive
    rfl
  | cons argument arguments ih =>
    cases derive with
    | cons _ _ rest => exact congrArg Nat.succ (ih rest)

theorem ArgumentsDerive.typed_length_eq {setting : Setting} {loops : Known Interface} {context : Known Ty}
    {parameters : List Ty} {arguments : List Expr} {typed : List Typed.Expr}
    (derive : ArgumentsDerive setting loops context parameters arguments typed) :
    typed.length = parameters.length := by
  induction arguments generalizing parameters typed with
  | nil =>
    cases derive
    rfl
  | cons argument arguments ih =>
    cases derive with
    | cons _ _ rest => exact congrArg Nat.succ (ih rest)

/-- The target is a variable, and the value has exactly its type. -/
structure Assigns (setting : Setting) (loops : Known Interface) (context : Known Ty)
    (assignment : Assignment) (typed : Typed.Expr) : Prop where
  target : context assignment.target.name = some typed.type
  value : ExprDerives setting loops context assignment.value typed

structure Guards (setting : Setting) (loops : Known Interface) (context : Known Ty)
    (condition : Expr) (typed : Typed.Expr) : Prop where
  derives : ExprDerives setting loops context condition typed
  truth : typed.type.compatible .bool

mutual

/-- The last context is the one after the statement. A loop variable is known within its loop only. -/
inductive StmtDerives (options : Options) (setting : Setting) :
    Known Interface → Known Ty → Stmt → Typed.Stmt → Known Ty → Prop
  | declaration {loops context binder span} : setting.Admits context binder.name.name →
    StmtDerives options setting loops context (.declaration binder none span)
      (.declaration binder.name.name binder.type none span)
      (context.add binder.name.name binder.type)
  | initialised {loops context binder initial span typed} :
    setting.Admits context binder.name.name →
    Assigns setting loops (context.add binder.name.name binder.type) initial typed →
    StmtDerives options setting loops context (.declaration binder (some initial) span)
      (.declaration binder.name.name binder.type (some typed) span)
      (context.add binder.name.name binder.type)
  | assign {loops context assignment span typed} : Assigns setting loops context assignment typed →
    StmtDerives options setting loops context (.assign assignment span)
      (.assign assignment.target.name typed span) context
  | expression {loops context value span typed} : ExprDerives setting loops context value typed →
    StmtDerives options setting loops context (.expression value span) (.expression typed span)
      context
  | display {loops context value span typed} : ExprDerives setting loops context value typed →
    (options.strictDisplay → typed.type = .string) →
    StmtDerives options setting loops context (.display value span) (.display typed span) context
  | ifThen {loops context after condition body span typedCondition typedBody} :
    Guards setting loops context condition typedCondition →
    StmtDerives options setting loops context body typedBody after →
    StmtDerives options setting loops context (.ifThen condition body span)
      (.ifThen typedCondition typedBody span) after
  | ifElse {loops context middle after condition body otherwise span typedCondition typedBody
      typedOtherwise} :
    Guards setting loops context condition typedCondition →
    StmtDerives options setting loops context body typedBody middle →
    StmtDerives options setting loops middle otherwise typedOtherwise after →
    StmtDerives options setting loops context (.ifElse condition body otherwise span)
      (.ifElse typedCondition typedBody typedOtherwise span) after
  | whileLoop {loops context after condition body span typedCondition typedBody} :
    Guards setting loops context condition typedCondition →
    StmtDerives options setting loops context body typedBody after →
    StmtDerives options setting loops context (.whileLoop condition body span)
      (.whileLoop typedCondition typedBody span) after
  | forEach {loops context after binder group body span client typedBody} : setting.isServer →
    binder.type = .client → setting.group? group.name = some client →
    setting.Admits context binder.name.name →
    StmtDerives options setting (loops.add binder.name.name client)
      (context.add binder.name.name .client) body typedBody after →
    StmtDerives options setting loops context (.forEach binder group body span)
      (.forEach binder.name.name group.name client.name typedBody span)
      (after.drop binder.name.name)
  | returnsNothing {loops context span} : setting.current.returnType = .void →
    StmtDerives options setting loops context (.returns none span) (.returns none .void span) context
  | returns {loops context value span typed} : ExprDerives setting loops context value typed →
    typed.type = setting.current.returnType →
    StmtDerives options setting loops context (.returns (some value) span)
      (.returns (some typed) typed.type span) context
  | block {loops context after body span typedBody} :
    StmtsDerive options setting loops context body typedBody after →
    StmtDerives options setting loops context (.block body span) (.block typedBody span) after

inductive StmtsDerive (options : Options) (setting : Setting) :
    Known Interface → Known Ty → List Stmt → List Typed.Stmt → Known Ty → Prop
  | nil {loops context} : StmtsDerive options setting loops context [] [] context
  | cons {loops context middle after first rest typedFirst typedRest} :
    StmtDerives options setting loops context first typedFirst middle →
    StmtsDerive options setting loops middle rest typedRest after →
    StmtsDerive options setting loops context (first :: rest) (typedFirst :: typedRest) after

end

/-- Each element derives in view of those before it. -/
inductive InTurn {α β : Type} (derives : List α → α → β → Prop) : List α → List α → List β → Prop
  | nil {before : List α} : InTurn derives before [] []
  | cons {before rest : List α} {item : α} {typed : β} {others : List β} :
    derives before item typed → InTurn derives (before ++ [item]) rest others →
    InTurn derives before (item :: rest) (typed :: others)

theorem InTurn.map_eq {α β γ : Type} {derives : List α → α → β → Prop} {result : α → γ} {view : β → γ}
    (same : ∀ before item typed, derives before item typed → view typed = result item)
    {before items : List α} {typed : List β} (turn : InTurn derives before items typed) :
    typed.map view = items.map result := by
  induction turn with
  | nil => rfl
  | cons first _ ih => rw [List.map_cons, List.map_cons, same _ _ _ first, ih]

theorem InTurn.eq_map {α β : Type} {derives : List α → α → β → Prop} {result : α → β}
    (determined : ∀ before item typed, derives before item typed → typed = result item)
    {before items : List α} {typed : List β} (turn : InTurn derives before items typed) :
    typed = items.map result := by
  have same : typed.map id = items.map result := turn.map_eq determined
  rwa [List.map_id] at same

/-- The types of the parameters, which are the first variables of a function. -/
def seeded (parameters : List Binder) : Known Ty :=
  parameters.foldl (fun known binder => known.add binder.name.name binder.type) .nothing

structure ParameterDerives (setting : Setting) (before : List Binder) (binder : Binder)
    (typed : Typed.Parameter) : Prop where
  admitted : setting.Admits (seeded before) binder.name.name
  result : typed = ⟨binder.type, binder.name.name⟩

/-- A part as the next of its functions finds it. -/
def Setting.of (owner : String) (holdings : Holdings) (before : List Function) (function : Function) :
    Setting :=
  ⟨owner, holdings, (before ++ [function]).map Function.signature, function.signature⟩

/-- The names of tunnel operations are no names for functions of a client. -/
structure FunctionDerives (options : Options) (owner : String) (holdings : Holdings)
    (before : List Function) (function : Function) (typed : Typed.Function) : Prop where
  fresh : find? function.name.name (before.map Function.signature) = none
  allowed : (Setting.of owner holdings before function).isServer ∨
    isTunnelOperation function.name.name = false
  parameters : InTurn (ParameterDerives (.of owner holdings before function)) [] function.parameters
    typed.parameters
  body : ∃ after, StmtsDerive options (.of owner holdings before function) .nothing
    (seeded function.parameters) function.body typed.body after
  result : (typed.returnType, typed.name, typed.span) =
    (function.returnType, function.name.name, function.span)

structure TunnelDerives (before : List Tunnel) (tunnel : Tunnel) (typed : Typed.Tunnel) : Prop where
  fresh : (before.map Tunnel.entry).lookup tunnel.binder.name.name = none
  carries : tunnel.binder.type.isTunnelable
  result : typed = tunnel.typed

/-- The first client of that name. -/
def interface? (clients : List Client) (name : String) : Option Interface :=
  (clients.find? fun client => client.name.name = name).map Client.interface

theorem interface?_eq_find? (clients : List Client) (name : String) :
    interface? clients name =
      (clients.map Client.interface).find? fun client => client.name = name := by
  rw [List.find?_map]
  rfl

/-- The groups whose client is declared, each with what the server sees of it. -/
def groupEntries (clients : List Client) (groups : List Group) : List (String × Interface) :=
  groups.filterMap fun group =>
    (interface? clients group.client.name).map fun client => (group.name.name, client)

structure GroupDerives (clients : List Client) (before : List Group) (group : Group)
    (typed : Typed.Group) : Prop where
  declared : (interface? clients group.client.name).isSome
  fresh : (groupEntries clients before).lookup group.name.name = none
  result : typed = group.typed

structure ClientDerives (options : Options) (before : List Client) (client : Client)
    (typed : Typed.Client) : Prop where
  fresh : interface? before client.name.name = none
  tunnels : InTurn TunnelDerives [] client.tunnels typed.tunnels
  functions : InTurn (FunctionDerives options client.name.name
    (.tunnels (client.tunnels.map Tunnel.entry))) [] client.functions typed.functions
  result : (typed.name, typed.span) = (client.name.name, client.span)

structure ServerDerives (options : Options) (clients : List Client) (server : Server)
    (typed : Typed.Server) : Prop where
  groups : InTurn (GroupDerives clients) [] server.groups typed.groups
  functions : InTurn (FunctionDerives options server.name.name
    (.groups (groupEntries clients server.groups))) [] server.functions typed.functions
  result : (typed.name, typed.span) = (server.name.name, server.span)

structure ProgramDerives (options : Options) (program : Program) (typed : Typed.Program) : Prop where
  clients : InTurn (ClientDerives options) [] program.clients typed.clients
  server : ServerDerives options program.clients program.server typed.server
  result : typed.span = program.span

end Typing
end Multiparty
