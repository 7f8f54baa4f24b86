import Multiparty.Proofs.TypingFaults

/-! The two judgements leave no gap: whatever does not derive breaks a rule somewhere. -/

namespace Multiparty.Typing

/-- Derivable, or with a first place at fault. -/
def Decided {β : Type} (derives : β → Prop) (breaks : Violation → Position → Prop) : Prop :=
  (∃ typed, derives typed) ∨ ∃ violated place, breaks violated place

theorem Opens.or_break (context : Known Ty) (names : List Identifier) :
    Decided (Opens context names) (OpensBreak context names) := by
  induction names generalizing context with
  | nil => exact .inl ⟨context, .nil⟩
  | cons first rest ih =>
    cases known : context first.name with
    | none => exact .inr ⟨_, _, .undefined known⟩
    | some type =>
      cases secret : type.isSecret with
      | false => exact .inr ⟨_, _, .notSecret known secret⟩
      | true =>
        rcases ih (context.add first.name type.publicOf) with ⟨opened, opens⟩ | ⟨_, _, broken⟩
        · exact .inl ⟨opened, .cons known secret opens⟩
        · exact .inr ⟨_, _, .later known secret broken⟩

theorem takes_of_ne_equal {operator : Operator} (ordinary : operator ≠ .equal) :
    ∃ operand result, Takes operator operand result := by
  cases operator with
  | equal => exact absurd rfl ordinary
  | add | subtract | multiply | divide | modulo => exact ⟨_, _, .arithmetic rfl⟩
  | and | or => exact ⟨_, _, .logical rfl⟩
  | less => exact ⟨_, _, .less⟩
  | greater => exact ⟨_, _, .greater⟩

theorem Operates.or_breaks (operator : Operator) (left right : Typed.Expr) :
    Decided (Operates operator left.type right.type) (OperatorBreaks operator left right) := by
  by_cases equal : operator = .equal
  · cases same : left.type.compatible right.type with
    | true => exact .inl ⟨_, .equality equal same⟩
    | false => exact .inr ⟨_, _, .equality equal same⟩
  · obtain ⟨operand, result, takes⟩ := takes_of_ne_equal equal
    cases fits : left.type.compatible operand with
    | false => exact .inr ⟨_, _, .left takes fits⟩
    | true =>
      cases fitsToo : right.type.compatible operand with
      | false => exact .inr ⟨_, _, .right takes fits fitsToo⟩
      | true => exact .inl ⟨_, .operands takes fits fitsToo⟩

theorem callee_or_breaks (owner : String) (functions : List Signature) (called : Identifier)
    (received : Nat) (callSpan : Span) :
    Decided (fun function => find? called.name functions = some function ∧
        function.parameters.length = received)
      (CalleeBreaks owner functions called received callSpan) := by
  cases found : find? called.name functions with
  | none => exact .inr ⟨_, _, .undefined found⟩
  | some function =>
    by_cases arity : function.parameters.length = received
    · exact .inl ⟨function, rfl, arity⟩
    · exact .inr ⟨_, _, .arity found arity⟩

section
variable (setting : Setting) (loops : Known Interface)

mutual

theorem ExprDerives.or_breaks (context : Known Ty) (expr : Expr) :
    Decided (ExprDerives setting loops context expr) (ExprBreaks setting loops context expr) := by
  cases expr with
  | int value span => exact .inl ⟨_, .int⟩
  | bool value span => exact .inl ⟨_, .bool⟩
  | string value span => exact .inl ⟨_, .string⟩
  | readInt span => exact .inl ⟨_, .readInt⟩
  | symbol name span =>
    cases known : setting.type? context name with
    | none => exact .inr ⟨_, _, .symbol known⟩
    | some type => exact .inl ⟨_, .symbol known⟩
  | binary operator left right span =>
    rcases ExprDerives.or_breaks context left with ⟨typedLeft, first⟩ | ⟨_, _, broken⟩
    · rcases ExprDerives.or_breaks context right with ⟨typedRight, second⟩ | ⟨_, _, broken⟩
      · rcases Operates.or_breaks operator typedLeft typedRight with ⟨type, operates⟩ | ⟨_, _, broken⟩
        · exact .inl ⟨_, .binary first second operates⟩
        · exact .inr ⟨_, _, .operator first second broken⟩
      · exact .inr ⟨_, _, .right first broken⟩
    · exact .inr ⟨_, _, .left broken⟩
  | not operand span =>
    rcases ExprDerives.or_breaks context operand with ⟨typed, derives⟩ | ⟨_, _, broken⟩
    · cases truth : typed.type.compatible .bool with
      | true => exact .inl ⟨_, .not derives truth⟩
      | false => exact .inr ⟨_, _, .notTruth derives truth⟩
    · exact .inr ⟨_, _, .operand broken⟩
  | call called arguments callSpan span =>
    rcases callee_or_breaks setting.owner setting.functions called arguments.length callSpan with
      ⟨function, found, arity⟩ | ⟨_, _, broken⟩
    · rcases ArgumentsDerive.or_break called.name context 1 function.parameters arguments arity with
        ⟨typed, derive⟩ | ⟨_, _, broken⟩
      · exact .inl ⟨_, .call found derive⟩
      · exact .inr ⟨_, _, .arguments found arity broken⟩
    · exact .inr ⟨_, _, .callee broken⟩
  | invoke target called arguments callSpan span =>
    cases server : setting.isServer with
    | false => exact .inr ⟨_, _, .outsideServer rfl server⟩
    | true =>
      cases bound : loops target.name with
      | none => exact .inr ⟨_, _, .unbound server bound⟩
      | some client =>
        rcases callee_or_breaks client.name client.functions called arguments.length callSpan with
          ⟨function, found, arity⟩ | ⟨_, _, broken⟩
        · rcases ArgumentsDerive.or_break called.name context 1 function.parameters arguments arity
            with ⟨typed, derive⟩ | ⟨_, _, broken⟩
          · exact .inl ⟨_, .invoke server bound found derive⟩
          · exact .inr ⟨_, _, .remoteArguments server bound found arity broken⟩
        · exact .inr ⟨_, _, .remoteCallee server bound broken⟩
  | put tunnel value callSpan span =>
    cases server : setting.isServer with
    | true => exact .inr ⟨_, _, .outsideClient rfl server⟩
    | false =>
      cases known : setting.tunnel? tunnel.name with
      | none => exact .inr ⟨_, _, .putUndefined server known⟩
      | some carried =>
        rcases ExprDerives.or_breaks context value with ⟨typed, derives⟩ | ⟨_, _, broken⟩
        · by_cases same : typed.type = carried
          · exact .inl ⟨_, .put server (same ▸ known) derives⟩
          · exact .inr ⟨_, _, .putMismatch server known derives same⟩
        · exact .inr ⟨_, _, .putValue server known broken⟩
  | read tunnel reading callSpan span =>
    cases server : setting.isServer with
    | true => exact .inr ⟨_, _, .outsideClient rfl server⟩
    | false =>
      cases known : setting.tunnel? tunnel.name with
      | none => exact .inr ⟨_, _, .readUndefined server known⟩
      | some carried => exact .inl ⟨_, .read server known⟩
  | remotePut target tunnel value callSpan span =>
    cases server : setting.isServer with
    | false => exact .inr ⟨_, _, .outsideServer rfl server⟩
    | true => exact .inr ⟨_, _, .remotePut server⟩
  | remoteRead target tunnel reading callSpan span =>
    cases server : setting.isServer with
    | false => exact .inr ⟨_, _, .outsideServer rfl server⟩
    | true =>
      cases bound : loops target.name with
      | none => exact .inr ⟨_, _, .remoteUnbound server bound⟩
      | some client =>
        cases known : client.tunnels.lookup tunnel.name with
        | none => exact .inr ⟨_, _, .remoteUndefined server bound known⟩
        | some carried => exact .inl ⟨_, .remoteRead server bound known⟩
  | reveal body names span =>
    cases server : setting.isServer with
    | false => exact .inr ⟨_, _, .outsideServer rfl server⟩
    | true =>
      rcases Opens.or_break context names with ⟨opened, opens⟩ | ⟨_, _, broken⟩
      · rcases ExprDerives.or_breaks opened body with ⟨typed, derives⟩ | ⟨_, _, broken⟩
        · exact .inl ⟨_, .reveal server opens derives⟩
        · exact .inr ⟨_, _, .revealed server opens broken⟩
      · exact .inr ⟨_, _, .opens server broken⟩
termination_by structural expr

theorem ArgumentsDerive.or_break (called : String) (context : Known Ty) (count : Nat)
    (parameters : List Ty) (arguments : List Expr) (arity : parameters.length = arguments.length) :
    Decided (ArgumentsDerive setting loops context parameters arguments)
      (ArgumentsBreak setting loops called context count parameters arguments) := by
  match parameters, arguments with
  | [], [] => exact .inl ⟨_, .nil⟩
  | parameter :: parameters, argument :: arguments =>
    rcases ExprDerives.or_breaks context argument with ⟨typed, derives⟩ | ⟨_, _, broken⟩
    · cases fits : parameter.compatible typed.type with
      | false => exact .inr ⟨_, _, .mismatch derives fits⟩
      | true =>
        rcases ArgumentsDerive.or_break called context (count + 1) parameters arguments
          (Nat.succ.inj arity) with ⟨others, derive⟩ | ⟨_, _, broken⟩
        · exact .inl ⟨_, .cons derives fits derive⟩
        · exact .inr ⟨_, _, .later derives fits broken⟩
    · exact .inr ⟨_, _, .argument broken⟩
termination_by structural arguments

end

theorem Setting.admits_or_break (context : Known Ty) (name : Identifier) :
    setting.Admits context name.name ∨
      ∃ violated place, AdmitsBreak setting context name violated place := by
  cases tunnel : setting.tunnel? name.name with
  | some carried => exact .inr ⟨_, _, .tunnel (by simp [tunnel])⟩
  | none =>
    cases group : setting.group? name.name with
    | some client => exact .inr ⟨_, _, .group (by simp [group])⟩
    | none =>
      cases known : context name.name with
      | some type => exact .inr ⟨_, _, .declared tunnel group (by simp [known])⟩
      | none => exact .inl ⟨tunnel, group, known⟩

theorem Assigns.or_break (context : Known Ty) (assignment : Assignment) :
    Decided (Assigns setting loops context assignment)
      (AssignsBreak setting loops context assignment) := by
  cases known : context assignment.target.name with
  | none => exact .inr ⟨_, _, .undefined known⟩
  | some expected =>
    rcases ExprDerives.or_breaks setting loops context assignment.value with
      ⟨typed, derives⟩ | ⟨_, _, broken⟩
    · by_cases same : typed.type = expected
      · exact .inl ⟨typed, same ▸ known, derives⟩
      · exact .inr ⟨_, _, .mismatch known derives same⟩
    · exact .inr ⟨_, _, .value known broken⟩

theorem Guards.or_break (context : Known Ty) (construct : String) (condition : Expr) :
    Decided (Guards setting loops context condition)
      (GuardsBreak setting loops context construct condition) := by
  rcases ExprDerives.or_breaks setting loops context condition with ⟨typed, derives⟩ | ⟨_, _, broken⟩
  · cases truth : typed.type.compatible .bool with
    | true => exact .inl ⟨typed, derives, truth⟩
    | false => exact .inr ⟨_, _, .notTruth derives truth⟩
  · exact .inr ⟨_, _, .condition broken⟩

end

section
variable (options : Options) (setting : Setting)

mutual

theorem StmtDerives.or_breaks (loops : Known Interface) (context : Known Ty) (stmt : Stmt) :
    Decided (fun result : Typed.Stmt × Known Ty =>
        StmtDerives options setting loops context stmt result.1 result.2)
      (StmtBreaks options setting loops context stmt) := by
  cases stmt with
  | declaration binder initial span =>
    rcases setting.admits_or_break context binder.name with admitted | ⟨_, _, broken⟩
    · match initial with
      | none => exact .inl ⟨(_, _), .declaration admitted⟩
      | some initial =>
        rcases Assigns.or_break setting loops (context.add binder.name.name binder.type) initial with
          ⟨typed, assigns⟩ | ⟨_, _, broken⟩
        · exact .inl ⟨(_, _), .initialised admitted assigns⟩
        · exact .inr ⟨_, _, .initial admitted broken⟩
    · exact .inr ⟨_, _, .declares broken⟩
  | assign assignment span =>
    rcases Assigns.or_break setting loops context assignment with ⟨typed, assigns⟩ | ⟨_, _, broken⟩
    · exact .inl ⟨(_, _), .assign assigns⟩
    · exact .inr ⟨_, _, .assign broken⟩
  | expression value span =>
    rcases ExprDerives.or_breaks setting loops context value with ⟨typed, derives⟩ | ⟨_, _, broken⟩
    · exact .inl ⟨(_, _), .expression derives⟩
    · exact .inr ⟨_, _, .expression broken⟩
  | display value span =>
    rcases ExprDerives.or_breaks setting loops context value with ⟨typed, derives⟩ | ⟨_, _, broken⟩
    · by_cases strict : options.strictDisplay ∧ typed.type ≠ .string
      · exact .inr ⟨_, _, .display derives strict.1 strict.2⟩
      · exact .inl ⟨(_, _), .display derives fun demanded =>
          Decidable.of_not_not fun other => strict ⟨demanded, other⟩⟩
    · exact .inr ⟨_, _, .displayed broken⟩
  | ifThen condition body span =>
    rcases Guards.or_break setting loops context "if" condition with ⟨typed, guards⟩ | ⟨_, _, broken⟩
    · rcases StmtDerives.or_breaks loops context body with ⟨⟨_, after⟩, derives⟩ | ⟨_, _, broken⟩
      · exact .inl ⟨(_, _), .ifThen guards derives⟩
      · exact .inr ⟨_, _, .ifBody guards broken⟩
    · exact .inr ⟨_, _, .ifGuard broken⟩
  | ifElse condition body otherwise span =>
    rcases Guards.or_break setting loops context "if" condition with ⟨typed, guards⟩ | ⟨_, _, broken⟩
    · rcases StmtDerives.or_breaks loops context body with ⟨⟨_, middle⟩, first⟩ | ⟨_, _, broken⟩
      · rcases StmtDerives.or_breaks loops middle otherwise with ⟨⟨_, after⟩, second⟩ | ⟨_, _, broken⟩
        · exact .inl ⟨(_, _), .ifElse guards first second⟩
        · exact .inr ⟨_, _, .otherwise guards first broken⟩
      · exact .inr ⟨_, _, .ifElseBody guards broken⟩
    · exact .inr ⟨_, _, .ifElseGuard broken⟩
  | whileLoop condition body span =>
    rcases Guards.or_break setting loops context "while" condition with
      ⟨typed, guards⟩ | ⟨_, _, broken⟩
    · rcases StmtDerives.or_breaks loops context body with ⟨⟨_, after⟩, derives⟩ | ⟨_, _, broken⟩
      · exact .inl ⟨(_, _), .whileLoop guards derives⟩
      · exact .inr ⟨_, _, .whileBody guards broken⟩
    · exact .inr ⟨_, _, .whileGuard broken⟩
  | forEach binder group body span =>
    cases server : setting.isServer with
    | false => exact .inr ⟨_, _, .outsideServer server⟩
    | true =>
      by_cases looped : binder.type = .client
      · cases known : setting.group? group.name with
        | none => exact .inr ⟨_, _, .group server looped known⟩
        | some client =>
          rcases setting.admits_or_break context binder.name with admitted | ⟨_, _, broken⟩
          · rcases StmtDerives.or_breaks (loops.add binder.name.name client)
              (context.add binder.name.name .client) body with ⟨⟨_, after⟩, derives⟩ | ⟨_, _, broken⟩
            · exact .inl ⟨(_, _), .forEach server looped known admitted derives⟩
            · exact .inr ⟨_, _, .loopBody server looped known admitted broken⟩
          · exact .inr ⟨_, _, .loopDeclares server looped known broken⟩
      · exact .inr ⟨_, _, .loopVariable server looped⟩
  | returns value span =>
    match value with
    | none =>
      by_cases same : setting.current.returnType = .void
      · exact .inl ⟨(_, _), .returnsNothing same⟩
      · exact .inr ⟨_, _, .returnsNothing same⟩
    | some value =>
      rcases ExprDerives.or_breaks setting loops context value with ⟨typed, derives⟩ | ⟨_, _, broken⟩
      · by_cases same : typed.type = setting.current.returnType
        · exact .inl ⟨(_, _), .returns derives same⟩
        · exact .inr ⟨_, _, .returns derives same⟩
      · exact .inr ⟨_, _, .returned broken⟩
  | block body span =>
    rcases StmtsDerive.or_break loops context body with ⟨⟨_, after⟩, derive⟩ | ⟨_, _, broken⟩
    · exact .inl ⟨(_, _), .block derive⟩
    · exact .inr ⟨_, _, .block broken⟩
termination_by structural stmt

theorem StmtsDerive.or_break (loops : Known Interface) (context : Known Ty) (stmts : List Stmt) :
    Decided (fun result : List Typed.Stmt × Known Ty =>
        StmtsDerive options setting loops context stmts result.1 result.2)
      (StmtsBreak options setting loops context stmts) := by
  match stmts with
  | [] => exact .inl ⟨(_, _), .nil⟩
  | first :: rest =>
    rcases StmtDerives.or_breaks loops context first with ⟨⟨_, middle⟩, derives⟩ | ⟨_, _, broken⟩
    · rcases StmtsDerive.or_break loops middle rest with ⟨⟨_, after⟩, derive⟩ | ⟨_, _, broken⟩
      · exact .inl ⟨(_, _), .cons derives derive⟩
      · exact .inr ⟨_, _, .later derives broken⟩
    · exact .inr ⟨_, _, .here broken⟩
termination_by structural stmts

end
end

theorem InTurn.or_break {α β : Type} {derives : List α → α → β → Prop}
    {breaks : List α → α → Violation → Position → Prop}
    (decided : ∀ before item, Decided (derives before item) (breaks before item))
    (before items : List α) :
    Decided (InTurn derives before items) (BreaksInTurn derives breaks before items) := by
  induction items generalizing before with
  | nil => exact .inl ⟨_, .nil⟩
  | cons item rest ih =>
    rcases decided before item with ⟨typed, first⟩ | ⟨_, _, broken⟩
    · rcases ih (before ++ [item]) with ⟨others, later⟩ | ⟨_, _, broken⟩
      · exact .inl ⟨_, .cons first later⟩
      · exact .inr ⟨_, _, .later first broken⟩
    · exact .inr ⟨_, _, .here broken⟩

theorem ParameterDerives.or_breaks (setting : Setting) (before : List Binder) (binder : Binder) :
    Decided (ParameterDerives setting before binder) (ParameterBreaks setting before binder) := by
  rcases setting.admits_or_break (seeded before) binder.name with admitted | broken
  · exact .inl ⟨_, admitted, rfl⟩
  · exact .inr broken

theorem FunctionDerives.or_breaks (options : Options) (owner : String) (holdings : Holdings)
    (before : List Function) (function : Function) :
    Decided (FunctionDerives options owner holdings before function)
      (FunctionBreaks options owner holdings before function) := by
  cases fresh : find? function.name.name (before.map Function.signature) with
  | some other => exact .inr ⟨_, _, .duplicate (by simp [fresh])⟩
  | none =>
    by_cases allowed : (Setting.of owner holdings before function).isServer ∨
      isTunnelOperation function.name.name = false
    · rcases InTurn.or_break (ParameterDerives.or_breaks (.of owner holdings before function)) []
        function.parameters with ⟨parameters, derive⟩ | ⟨_, _, broken⟩
      · rcases StmtsDerive.or_break options (.of owner holdings before function) .nothing
          (seeded function.parameters) function.body with ⟨⟨body, after⟩, derives⟩ | ⟨_, _, broken⟩
        · exact .inl ⟨⟨function.returnType, function.name.name, parameters, body, function.span⟩,
            fresh, allowed, derive, ⟨after, derives⟩, rfl⟩
        · exact .inr ⟨_, _, .body fresh allowed derive broken⟩
      · exact .inr ⟨_, _, .parameters fresh allowed broken⟩
    · simp only [not_or, Bool.not_eq_true, Bool.not_eq_false] at allowed
      exact .inr ⟨_, _, .reserved fresh allowed.1 allowed.2⟩

theorem TunnelDerives.or_breaks (owner : String) (before : List Tunnel) (tunnel : Tunnel) :
    Decided (TunnelDerives before tunnel) (TunnelBreaks owner before tunnel) := by
  cases fresh : (before.map Tunnel.entry).lookup tunnel.binder.name.name with
  | some type => exact .inr ⟨_, _, .duplicate (by simp [fresh])⟩
  | none =>
    cases carries : tunnel.binder.type.isTunnelable with
    | true => exact .inl ⟨_, fresh, carries, rfl⟩
    | false => exact .inr ⟨_, _, .unsupported fresh carries⟩

theorem GroupDerives.or_breaks (owner : String) (clients : List Client) (before : List Group)
    (group : Group) :
    Decided (GroupDerives clients before group) (GroupBreaks owner clients before group) := by
  cases declared : interface? clients group.client.name with
  | none => exact .inr ⟨_, _, .undeclared declared⟩
  | some client =>
    cases fresh : (groupEntries clients before).lookup group.name.name with
    | some other => exact .inr ⟨_, _, .duplicate (by simp [declared]) (by simp [fresh])⟩
    | none => exact .inl ⟨_, by simp [declared], fresh, rfl⟩

theorem ClientDerives.or_breaks (options : Options) (before : List Client) (client : Client) :
    Decided (ClientDerives options before client) (ClientBreaks options before client) := by
  cases fresh : interface? before client.name.name with
  | some other => exact .inr ⟨_, _, .duplicate (by simp [fresh])⟩
  | none =>
    rcases InTurn.or_break (TunnelDerives.or_breaks client.name.name) [] client.tunnels with
      ⟨tunnels, carried⟩ | ⟨_, _, broken⟩
    · rcases InTurn.or_break (FunctionDerives.or_breaks options client.name.name
        (.tunnels (client.tunnels.map Tunnel.entry))) [] client.functions with
        ⟨functions, derive⟩ | ⟨_, _, broken⟩
      · exact .inl ⟨⟨client.name.name, tunnels, functions, client.span⟩, fresh, carried, derive, rfl⟩
      · exact .inr ⟨_, _, .functions fresh carried broken⟩
    · exact .inr ⟨_, _, .tunnels fresh broken⟩

theorem ServerDerives.or_breaks (options : Options) (clients : List Client) (server : Server) :
    Decided (ServerDerives options clients server) (ServerBreaks options clients server) := by
  rcases InTurn.or_break (GroupDerives.or_breaks server.name.name clients) [] server.groups with
    ⟨groups, named⟩ | ⟨_, _, broken⟩
  · rcases InTurn.or_break (FunctionDerives.or_breaks options server.name.name
      (.groups (groupEntries clients server.groups))) [] server.functions with
      ⟨functions, derive⟩ | ⟨_, _, broken⟩
    · exact .inl ⟨⟨server.name.name, groups, functions, server.span⟩, named, derive, rfl⟩
    · exact .inr ⟨_, _, .functions named broken⟩
  · exact .inr ⟨_, _, .groups broken⟩

theorem ProgramDerives.or_breaks (options : Options) (program : Program) :
    Decided (ProgramDerives options program) (ProgramBreaks options program) := by
  rcases InTurn.or_break (ClientDerives.or_breaks options) [] program.clients with
    ⟨clients, derive⟩ | ⟨_, _, broken⟩
  · rcases ServerDerives.or_breaks options program.clients program.server with
      ⟨server, derives⟩ | ⟨_, _, broken⟩
    · exact .inl ⟨⟨clients, server, program.span⟩, derive, derives, rfl⟩
    · exact .inr ⟨_, _, .server derive broken⟩
  · exact .inr ⟨_, _, .clients broken⟩

end Multiparty.Typing
