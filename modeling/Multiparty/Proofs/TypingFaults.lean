import Multiparty.Proofs.TypingRules

/-! How a program breaks the rules of the type system. Going through it depth first, everything before the
place at fault derives, and there one rule does not apply: the judgements give its violation and position. -/

namespace Multiparty.Typing

/-- The operator finds fault with the left operand before the right one. -/
inductive OperatorBreaks (operator : Operator) (left right : Typed.Expr) : Violation → Position → Prop
  | left {operand result : Ty} : Takes operator operand result →
    left.type.compatible operand = false →
    OperatorBreaks operator left right (.operandType operator.symbol "left" operand left.type)
      left.start
  | right {operand result : Ty} : Takes operator operand result → left.type.compatible operand →
    right.type.compatible operand = false →
    OperatorBreaks operator left right (.operandType operator.symbol "right" operand right.type)
      right.start
  | equality : operator = .equal → left.type.compatible right.type = false →
    OperatorBreaks operator left right (.equalityMismatch left.type right.type) right.start

/-- No function of the part `owner` has that name, or it takes another number of arguments. -/
inductive CalleeBreaks (owner : String) (functions : List Signature) (called : Identifier)
    (received : Nat) (callSpan : Span) : Violation → Position → Prop
  | undefined : find? called.name functions = none →
    CalleeBreaks owner functions called received callSpan (.undefinedFunction called.name owner)
      called.span.start
  | arity {function : Signature} : find? called.name functions = some function →
    function.parameters.length ≠ received →
    CalleeBreaks owner functions called received callSpan
      (.arityMismatch called.name function.parameters.length received) callSpan.start

inductive OpensBreak : Known Ty → List Identifier → Violation → Position → Prop
  | undefined {context : Known Ty} {first : Identifier} {rest : List Identifier} :
    context first.name = none →
    OpensBreak context (first :: rest) (.undefinedVariable first.name) first.span.start
  | notSecret {context : Known Ty} {first : Identifier} {rest : List Identifier} {type : Ty} :
    context first.name = some type → type.isSecret = false →
    OpensBreak context (first :: rest) (.notSecret first.name type) first.span.start
  | later {context : Known Ty} {first : Identifier} {rest : List Identifier} {type : Ty}
      {violated : Violation} {place : Position} :
    context first.name = some type → type.isSecret →
    OpensBreak (context.add first.name type.publicOf) rest violated place →
    OpensBreak context (first :: rest) violated place

/-- What an expression is called that may stand in functions of the server only. -/
def serverConstruct? : Expr → Option String
  | .invoke .. => some "method invocations"
  | .remotePut .. | .remoteRead .. => some "remote tunnel access"
  | .reveal .. => some "open"
  | _ => none

/-- What an expression is called that may stand in functions of clients only. -/
def clientConstruct? : Expr → Option String
  | .put .. | .read .. => some "tunnel operations"
  | _ => none

mutual

inductive ExprBreaks (setting : Setting) (loops : Known Interface) :
    Known Ty → Expr → Violation → Position → Prop
  | outsideServer {context expr construct} : serverConstruct? expr = some construct →
    setting.isServer = false →
    ExprBreaks setting loops context expr (.outsideServer construct) expr.start
  | outsideClient {context expr construct} : clientConstruct? expr = some construct →
    setting.isServer →
    ExprBreaks setting loops context expr (.outsideClient construct) expr.start
  | symbol {context name span} : setting.type? context name = none →
    ExprBreaks setting loops context (.symbol name span) (.undefinedVariable name) span.start
  | left {context operator left right span violated place} :
    ExprBreaks setting loops context left violated place →
    ExprBreaks setting loops context (.binary operator left right span) violated place
  | right {context operator left right span typedLeft violated place} :
    ExprDerives setting loops context left typedLeft →
    ExprBreaks setting loops context right violated place →
    ExprBreaks setting loops context (.binary operator left right span) violated place
  | operator {context operator left right span typedLeft typedRight violated place} :
    ExprDerives setting loops context left typedLeft →
    ExprDerives setting loops context right typedRight →
    OperatorBreaks operator typedLeft typedRight violated place →
    ExprBreaks setting loops context (.binary operator left right span) violated place
  | operand {context operand span violated place} :
    ExprBreaks setting loops context operand violated place →
    ExprBreaks setting loops context (.not operand span) violated place
  | notTruth {context operand span typed} : ExprDerives setting loops context operand typed →
    typed.type.compatible .bool = false →
    ExprBreaks setting loops context (.not operand span)
      (.operandType "not" "only" .bool typed.type) typed.start
  | callee {context called arguments callSpan span violated place} :
    CalleeBreaks setting.owner setting.functions called arguments.length callSpan violated place →
    ExprBreaks setting loops context (.call called arguments callSpan span) violated place
  | arguments {context called arguments callSpan span function violated place} :
    find? called.name setting.functions = some function →
    function.parameters.length = arguments.length →
    ArgumentsBreak setting loops called.name context 1 function.parameters arguments violated
      place →
    ExprBreaks setting loops context (.call called arguments callSpan span) violated place
  | unbound {context target called arguments callSpan span} : setting.isServer →
    loops target.name = none →
    ExprBreaks setting loops context (.invoke target called arguments callSpan span)
      (.unboundClient target.name) target.span.start
  | remoteCallee {context target called arguments callSpan span client violated place} :
    setting.isServer → loops target.name = some client →
    CalleeBreaks client.name client.functions called arguments.length callSpan violated place →
    ExprBreaks setting loops context (.invoke target called arguments callSpan span) violated place
  | remoteArguments {context target called arguments callSpan span client function violated place} :
    setting.isServer → loops target.name = some client →
    find? called.name client.functions = some function →
    function.parameters.length = arguments.length →
    ArgumentsBreak setting loops called.name context 1 function.parameters arguments violated
      place →
    ExprBreaks setting loops context (.invoke target called arguments callSpan span) violated place
  | putUndefined {context tunnel value callSpan span} : setting.isServer = false →
    setting.tunnel? tunnel.name = none →
    ExprBreaks setting loops context (.put tunnel value callSpan span)
      (.undefinedTunnel tunnel.name setting.owner) tunnel.span.start
  | putValue {context tunnel value callSpan span carried violated place} :
    setting.isServer = false → setting.tunnel? tunnel.name = some carried →
    ExprBreaks setting loops context value violated place →
    ExprBreaks setting loops context (.put tunnel value callSpan span) violated place
  | putMismatch {context tunnel value callSpan span carried typed} : setting.isServer = false →
    setting.tunnel? tunnel.name = some carried → ExprDerives setting loops context value typed →
    typed.type ≠ carried →
    ExprBreaks setting loops context (.put tunnel value callSpan span)
      (.tunnelMismatch tunnel.name carried typed.type) typed.start
  | readUndefined {context tunnel reading callSpan span} : setting.isServer = false →
    setting.tunnel? tunnel.name = none →
    ExprBreaks setting loops context (.read tunnel reading callSpan span)
      (.undefinedTunnel tunnel.name setting.owner) tunnel.span.start
  | remotePut {context target tunnel value callSpan span} : setting.isServer →
    ExprBreaks setting loops context (.remotePut target tunnel value callSpan span)
      (.illegalTunnelDirection tunnel.name) span.start
  | remoteUnbound {context target tunnel reading callSpan span} : setting.isServer →
    loops target.name = none →
    ExprBreaks setting loops context (.remoteRead target tunnel reading callSpan span)
      (.unboundClient target.name) target.span.start
  | remoteUndefined {context target tunnel reading callSpan span client} : setting.isServer →
    loops target.name = some client → client.tunnels.lookup tunnel.name = none →
    ExprBreaks setting loops context (.remoteRead target tunnel reading callSpan span)
      (.undefinedTunnel tunnel.name client.name) tunnel.span.start
  | opens {context body names span violated place} : setting.isServer →
    OpensBreak context names violated place →
    ExprBreaks setting loops context (.reveal body names span) violated place
  | revealed {context opened body names span violated place} : setting.isServer →
    Opens context names opened → ExprBreaks setting loops opened body violated place →
    ExprBreaks setting loops context (.reveal body names span) violated place

/-- The arguments are counted, the first of `arguments` being number `count`. -/
inductive ArgumentsBreak (setting : Setting) (loops : Known Interface) :
    String → Known Ty → Nat → List Ty → List Expr → Violation → Position → Prop
  | argument {called context count parameter parameters argument arguments violated place} :
    ExprBreaks setting loops context argument violated place →
    ArgumentsBreak setting loops called context count (parameter :: parameters)
      (argument :: arguments) violated place
  | mismatch {called context count parameter parameters argument arguments typed} :
    ExprDerives setting loops context argument typed → parameter.compatible typed.type = false →
    ArgumentsBreak setting loops called context count (parameter :: parameters)
      (argument :: arguments) (.argumentMismatch called count parameter typed.type) typed.start
  | later {called context count parameter parameters argument arguments typed violated place} :
    ExprDerives setting loops context argument typed → parameter.compatible typed.type →
    ArgumentsBreak setting loops called context (count + 1) parameters arguments violated place →
    ArgumentsBreak setting loops called context count (parameter :: parameters)
      (argument :: arguments) violated place

end

inductive AdmitsBreak (setting : Setting) (context : Known Ty) (name : Identifier) :
    Violation → Position → Prop
  | tunnel : (setting.tunnel? name.name).isSome →
    AdmitsBreak setting context name (.shadowsTunnel name.name) name.span.start
  | group : (setting.group? name.name).isSome →
    AdmitsBreak setting context name (.shadowsGroup name.name) name.span.start
  | declared : setting.tunnel? name.name = none → setting.group? name.name = none →
    (context name.name).isSome →
    AdmitsBreak setting context name (.duplicateVariable name.name) name.span.start

inductive AssignsBreak (setting : Setting) (loops : Known Interface) (context : Known Ty)
    (assignment : Assignment) : Violation → Position → Prop
  | undefined : context assignment.target.name = none →
    AssignsBreak setting loops context assignment (.undefinedVariable assignment.target.name)
      assignment.target.span.start
  | value {expected : Ty} {violated : Violation} {place : Position} :
    context assignment.target.name = some expected →
    ExprBreaks setting loops context assignment.value violated place →
    AssignsBreak setting loops context assignment violated place
  | mismatch {expected : Ty} {typed : Typed.Expr} :
    context assignment.target.name = some expected →
    ExprDerives setting loops context assignment.value typed → typed.type ≠ expected →
    AssignsBreak setting loops context assignment
      (.assignmentMismatch assignment.target.name expected typed.type) typed.start

inductive GuardsBreak (setting : Setting) (loops : Known Interface) (context : Known Ty)
    (construct : String) (condition : Expr) : Violation → Position → Prop
  | condition {violated : Violation} {place : Position} :
    ExprBreaks setting loops context condition violated place →
    GuardsBreak setting loops context construct condition violated place
  | notTruth {typed : Typed.Expr} : ExprDerives setting loops context condition typed →
    typed.type.compatible .bool = false →
    GuardsBreak setting loops context construct condition (.conditionType construct typed.type)
      typed.start

mutual

inductive StmtBreaks (options : Options) (setting : Setting) :
    Known Interface → Known Ty → Stmt → Violation → Position → Prop
  | declares {loops context binder initial span violated place} :
    AdmitsBreak setting context binder.name violated place →
    StmtBreaks options setting loops context (.declaration binder initial span) violated place
  | initial {loops context binder initial span violated place} :
    setting.Admits context binder.name.name →
    AssignsBreak setting loops (context.add binder.name.name binder.type) initial violated place →
    StmtBreaks options setting loops context (.declaration binder (some initial) span) violated
      place
  | assign {loops context assignment span violated place} :
    AssignsBreak setting loops context assignment violated place →
    StmtBreaks options setting loops context (.assign assignment span) violated place
  | expression {loops context value span violated place} :
    ExprBreaks setting loops context value violated place →
    StmtBreaks options setting loops context (.expression value span) violated place
  | displayed {loops context value span violated place} :
    ExprBreaks setting loops context value violated place →
    StmtBreaks options setting loops context (.display value span) violated place
  | display {loops context value span typed} : ExprDerives setting loops context value typed →
    options.strictDisplay → typed.type ≠ .string →
    StmtBreaks options setting loops context (.display value span) (.displayType typed.type)
      typed.start
  | ifGuard {loops context condition body span violated place} :
    GuardsBreak setting loops context "if" condition violated place →
    StmtBreaks options setting loops context (.ifThen condition body span) violated place
  | ifBody {loops context condition body span typedCondition violated place} :
    Guards setting loops context condition typedCondition →
    StmtBreaks options setting loops context body violated place →
    StmtBreaks options setting loops context (.ifThen condition body span) violated place
  | ifElseGuard {loops context condition body otherwise span violated place} :
    GuardsBreak setting loops context "if" condition violated place →
    StmtBreaks options setting loops context (.ifElse condition body otherwise span) violated place
  | ifElseBody {loops context condition body otherwise span typedCondition violated place} :
    Guards setting loops context condition typedCondition →
    StmtBreaks options setting loops context body violated place →
    StmtBreaks options setting loops context (.ifElse condition body otherwise span) violated place
  | otherwise {loops context middle condition body otherwise span typedCondition typedBody violated
      place} :
    Guards setting loops context condition typedCondition →
    StmtDerives options setting loops context body typedBody middle →
    StmtBreaks options setting loops middle otherwise violated place →
    StmtBreaks options setting loops context (.ifElse condition body otherwise span) violated place
  | whileGuard {loops context condition body span violated place} :
    GuardsBreak setting loops context "while" condition violated place →
    StmtBreaks options setting loops context (.whileLoop condition body span) violated place
  | whileBody {loops context condition body span typedCondition violated place} :
    Guards setting loops context condition typedCondition →
    StmtBreaks options setting loops context body violated place →
    StmtBreaks options setting loops context (.whileLoop condition body span) violated place
  | outsideServer {loops context binder group body span} : setting.isServer = false →
    StmtBreaks options setting loops context (.forEach binder group body span)
      (.outsideServer "for loops") span.start
  | loopVariable {loops context binder group body span} : setting.isServer →
    binder.type ≠ .client →
    StmtBreaks options setting loops context (.forEach binder group body span)
      (.loopVariableType binder.type) binder.span.start
  | group {loops context binder group body span} : setting.isServer → binder.type = .client →
    setting.group? group.name = none →
    StmtBreaks options setting loops context (.forEach binder group body span)
      (.undefinedGroup group.name) group.span.start
  | loopDeclares {loops context binder group body span client violated place} : setting.isServer →
    binder.type = .client → setting.group? group.name = some client →
    AdmitsBreak setting context binder.name violated place →
    StmtBreaks options setting loops context (.forEach binder group body span) violated place
  | loopBody {loops context binder group body span client violated place} : setting.isServer →
    binder.type = .client → setting.group? group.name = some client →
    setting.Admits context binder.name.name →
    StmtBreaks options setting (loops.add binder.name.name client)
      (context.add binder.name.name .client) body violated place →
    StmtBreaks options setting loops context (.forEach binder group body span) violated place
  | returnsNothing {loops context span} : setting.current.returnType ≠ .void →
    StmtBreaks options setting loops context (.returns none span)
      (.returnMismatch setting.current.name setting.current.returnType .void) span.start
  | returned {loops context value span violated place} :
    ExprBreaks setting loops context value violated place →
    StmtBreaks options setting loops context (.returns (some value) span) violated place
  | returns {loops context value span typed} : ExprDerives setting loops context value typed →
    typed.type ≠ setting.current.returnType →
    StmtBreaks options setting loops context (.returns (some value) span)
      (.returnMismatch setting.current.name setting.current.returnType typed.type) span.start
  | block {loops context body span violated place} :
    StmtsBreak options setting loops context body violated place →
    StmtBreaks options setting loops context (.block body span) violated place

inductive StmtsBreak (options : Options) (setting : Setting) :
    Known Interface → Known Ty → List Stmt → Violation → Position → Prop
  | here {loops context first rest violated place} :
    StmtBreaks options setting loops context first violated place →
    StmtsBreak options setting loops context (first :: rest) violated place
  | later {loops context middle first rest typed violated place} :
    StmtDerives options setting loops context first typed middle →
    StmtsBreak options setting loops middle rest violated place →
    StmtsBreak options setting loops context (first :: rest) violated place

end

/-- The elements before the one that breaks derive in view of those before them. -/
inductive BreaksInTurn {α β : Type} (derives : List α → α → β → Prop)
    (breaks : List α → α → Violation → Position → Prop) :
    List α → List α → Violation → Position → Prop
  | here {before rest : List α} {item : α} {violated : Violation} {place : Position} :
    breaks before item violated place →
    BreaksInTurn derives breaks before (item :: rest) violated place
  | later {before rest : List α} {item : α} {typed : β} {violated : Violation} {place : Position} :
    derives before item typed →
    BreaksInTurn derives breaks (before ++ [item]) rest violated place →
    BreaksInTurn derives breaks before (item :: rest) violated place

def ParameterBreaks (setting : Setting) (before : List Binder) (binder : Binder) :
    Violation → Position → Prop :=
  AdmitsBreak setting (seeded before) binder.name

inductive FunctionBreaks (options : Options) (owner : String) (holdings : Holdings)
    (before : List Function) (function : Function) : Violation → Position → Prop
  | duplicate : (find? function.name.name (before.map Function.signature)).isSome →
    FunctionBreaks options owner holdings before function
      (.duplicateFunction function.name.name owner) function.name.span.start
  | reserved : find? function.name.name (before.map Function.signature) = none →
    (Setting.of owner holdings before function).isServer = false →
    isTunnelOperation function.name.name →
    FunctionBreaks options owner holdings before function
      (.reservedFunctionName function.name.name owner) function.name.span.start
  | parameters {violated : Violation} {place : Position} :
    find? function.name.name (before.map Function.signature) = none →
    (Setting.of owner holdings before function).isServer ∨
      isTunnelOperation function.name.name = false →
    BreaksInTurn (ParameterDerives (.of owner holdings before function))
      (ParameterBreaks (.of owner holdings before function)) [] function.parameters violated place →
    FunctionBreaks options owner holdings before function violated place
  | body {typed : List Typed.Parameter} {violated : Violation} {place : Position} :
    find? function.name.name (before.map Function.signature) = none →
    (Setting.of owner holdings before function).isServer ∨
      isTunnelOperation function.name.name = false →
    InTurn (ParameterDerives (.of owner holdings before function)) [] function.parameters typed →
    StmtsBreak options (.of owner holdings before function) .nothing (seeded function.parameters)
      function.body violated place →
    FunctionBreaks options owner holdings before function violated place

inductive TunnelBreaks (owner : String) (before : List Tunnel) (tunnel : Tunnel) :
    Violation → Position → Prop
  | duplicate : ((before.map Tunnel.entry).lookup tunnel.binder.name.name).isSome →
    TunnelBreaks owner before tunnel (.duplicateTunnel tunnel.binder.name.name owner)
      tunnel.binder.name.span.start
  | unsupported : (before.map Tunnel.entry).lookup tunnel.binder.name.name = none →
    tunnel.binder.type.isTunnelable = false →
    TunnelBreaks owner before tunnel
      (.unsupportedTunnelType tunnel.binder.name.name tunnel.binder.type) tunnel.binder.span.start

inductive GroupBreaks (owner : String) (clients : List Client) (before : List Group)
    (group : Group) : Violation → Position → Prop
  | undeclared : interface? clients group.client.name = none →
    GroupBreaks owner clients before group (.undefinedPart group.client.name)
      group.client.span.start
  | duplicate : (interface? clients group.client.name).isSome →
    ((groupEntries clients before).lookup group.name.name).isSome →
    GroupBreaks owner clients before group (.duplicateGroup group.name.name owner)
      group.name.span.start

inductive ClientBreaks (options : Options) (before : List Client) (client : Client) :
    Violation → Position → Prop
  | duplicate : (interface? before client.name.name).isSome →
    ClientBreaks options before client (.duplicatePart client.name.name) client.name.span.start
  | tunnels {violated : Violation} {place : Position} :
    interface? before client.name.name = none →
    BreaksInTurn TunnelDerives (TunnelBreaks client.name.name) [] client.tunnels violated place →
    ClientBreaks options before client violated place
  | functions {tunnels : List Typed.Tunnel} {violated : Violation} {place : Position} :
    interface? before client.name.name = none → InTurn TunnelDerives [] client.tunnels tunnels →
    BreaksInTurn
      (FunctionDerives options client.name.name (.tunnels (client.tunnels.map Tunnel.entry)))
      (FunctionBreaks options client.name.name (.tunnels (client.tunnels.map Tunnel.entry))) []
      client.functions violated place →
    ClientBreaks options before client violated place

inductive ServerBreaks (options : Options) (clients : List Client) (server : Server) :
    Violation → Position → Prop
  | groups {violated : Violation} {place : Position} :
    BreaksInTurn (GroupDerives clients) (GroupBreaks server.name.name clients) [] server.groups
      violated place →
    ServerBreaks options clients server violated place
  | functions {groups : List Typed.Group} {violated : Violation} {place : Position} :
    InTurn (GroupDerives clients) [] server.groups groups →
    BreaksInTurn
      (FunctionDerives options server.name.name (.groups (groupEntries clients server.groups)))
      (FunctionBreaks options server.name.name (.groups (groupEntries clients server.groups))) []
      server.functions violated place →
    ServerBreaks options clients server violated place

inductive ProgramBreaks (options : Options) (program : Program) : Violation → Position → Prop
  | clients {violated : Violation} {place : Position} :
    BreaksInTurn (ClientDerives options) (ClientBreaks options) [] program.clients violated place →
    ProgramBreaks options program violated place
  | server {typed : List Typed.Client} {violated : Violation} {place : Position} :
    InTurn (ClientDerives options) [] program.clients typed →
    ServerBreaks options program.clients program.server violated place →
    ProgramBreaks options program violated place

end Multiparty.Typing
