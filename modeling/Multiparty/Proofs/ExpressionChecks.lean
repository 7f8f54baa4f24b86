import Multiparty.Proofs.EnvironmentViews
import Multiparty.Proofs.TypingFaults

/-! Checking an expression follows the rules: in an environment that represents a context it gives what
derives there, or the violation of the first rule that is broken, and leaves the environment as it was. -/

namespace Multiparty

@[simp] theorem Scope.part_of (part : Part) (function : String) :
    (Scope.of part function).part = part := rfl

@[simp] theorem Scope.callTarget_of (part : Part) (function : String) :
    (Scope.of part function).callTarget = part := rfl

@[simp] theorem Scope.caller_of (part : Part) (function : String) :
    (Scope.of part function).caller = .of part function := rfl

namespace Checking
variable {α β : Type} {check : Checking α} {environment after : Environment}

theorem bind_ok {value : α} (ran : check environment = (.ok value, after)) (next : α → Checking β) :
    (check >>= next) environment = next value after := by
  simp only [bind, ran]

theorem bind_error {diagnostic : Diagnostic} (ran : check environment = (.error diagnostic, after))
    (next : α → Checking β) : (check >>= next) environment = (.error diagnostic, after) := by
  simp only [bind, ran]

end Checking

namespace Typing
open Checking

section
variable {environment : Environment}

theorem observe_run {α : Type} {view : Environment → α} {value : α}
    (seen : view environment = value) : observe view environment = (.ok value, environment) := by
  rw [← seen]
  rfl

theorem part_run {target : Part} {owner : PartScope} (found : environment.part? target = some owner) :
    Typing.part target environment = (.ok owner, environment) := by
  rw [Typing.part, bind_ok (observe_run found)]
  rfl

theorem function_run {scope : Scope} {function : FunctionScope}
    (found : environment.function? scope = some function) :
    Typing.function scope environment = (.ok function, environment) := by
  rw [Typing.function, bind_ok (observe_run found)]
  rfl

section
variable {target : Part} {owner : PartScope} {functions : List Signature}
  (found : environment.part? target = some owner) (published : Publishes owner functions)
  {called : Identifier} {received : Nat} {callSpan : Span}
include found published

theorem callee_run {signature : Signature} (member : find? called.name functions = some signature)
    (arity : signature.parameters.length = received) :
    ∃ function, function.signature = signature ∧
      callee target called received callSpan environment = (.ok function, environment) := by
  have shown := (published.signatures called.name).trans member
  obtain ⟨function, registered, rfl⟩ := Option.map_eq_some_iff.mp shown
  refine ⟨function.function, rfl, ?_⟩
  have counted : function.function.parameters.length = received := by
    simpa [Function.signature] using arity
  rw [callee, bind_ok (part_run found)]
  simp only [registered, counted, if_true]
  rfl

theorem callee_break {violated : Violation} {place : Position}
    (broken : CalleeBreaks owner.name functions called received callSpan violated place) :
    callee target called received callSpan environment =
      (.error (.violation violated place), environment) := by
  have shown := published.signatures called.name
  rw [callee, bind_ok (part_run found)]
  cases broken with
  | undefined missing =>
    rw [missing, Option.map_eq_none_iff] at shown
    rw [shown]
    rfl
  | arity member arity =>
    rw [member] at shown
    obtain ⟨function, registered, rfl⟩ := Option.map_eq_some_iff.mp shown
    have counted : function.function.parameters.length ≠ received := by
      simpa [Function.signature] using arity
    simp only [registered, counted, if_false]
    simp [Function.signature, Checking.violation, fail]

end

theorem carriedType_run {target : Part} {owner : PartScope} {tunnel : Identifier} {carried : Ty}
    (found : environment.part? target = some owner) (known : owner.tunnel? tunnel.name = some carried) :
    carriedType target tunnel environment = (.ok carried, environment) := by
  rw [carriedType, bind_ok (part_run found), known]
  rfl

theorem carriedType_break {target : Part} {owner : PartScope} {tunnel : Identifier}
    (found : environment.part? target = some owner) (unknown : owner.tunnel? tunnel.name = none) :
    carriedType target tunnel environment =
      (.error (.violation (.undefinedTunnel tunnel.name owner.name) tunnel.span.start), environment) := by
  rw [carriedType, bind_ok (part_run found), unknown]
  rfl

theorem requireOperand_run {operator place : String} {operand : Typed.Expr} {expected : Ty}
    (fits : operand.type.compatible expected) :
    requireOperand operator place operand expected environment = (.ok (), environment) := by
  rw [requireOperand, if_pos fits]
  rfl

theorem requireOperand_break {operator place : String} {operand : Typed.Expr} {expected : Ty}
    (unfit : operand.type.compatible expected = false) :
    requireOperand operator place operand expected environment =
      (.error (.violation (.operandType operator place expected operand.type) operand.start),
        environment) := by
  rw [requireOperand, unfit]
  rfl

theorem requireArgument_run {called : String} {count : Nat} {parameter : Binder}
    {argument : Typed.Expr} (fits : parameter.type.compatible argument.type) :
    requireArgument called count parameter argument environment = (.ok (), environment) := by
  rw [requireArgument, if_pos fits]
  rfl

theorem signature_of_takes {operator : Operator} {operand result : Ty}
    (takes : Takes operator operand result) :
    operator ≠ .equal ∧ signature operator = (operand, result) := by
  cases takes with
  | arithmetic arithmetic => cases operator <;> simp_all [Operator.isArithmetic, signature]
  | logical logical => cases operator <;> simp_all [Operator.isLogical, Operator.isArithmetic, signature]
  | less => simp [signature, Operator.isLogical, Operator.isArithmetic]
  | greater => simp [signature, Operator.isLogical, Operator.isArithmetic]

theorem checkBinary_run {operator : Operator} {left right : Typed.Expr} {type : Ty}
    (operates : Operates operator left.type right.type type) :
    checkBinary operator left right environment = (.ok type, environment) := by
  cases operates with
  | operands takes fits fitsToo =>
    obtain ⟨ordinary, asked⟩ := signature_of_takes takes
    rw [checkBinary, if_neg ordinary, asked]
    simp only
    rw [bind_ok (requireOperand_run fits), bind_ok (requireOperand_run fitsToo)]
    rfl
  | equality equal same =>
    rw [checkBinary, if_pos equal, if_pos same]
    rfl

theorem checkBinary_break {operator : Operator} {left right : Typed.Expr} {violated : Violation}
    {place : Position} (broken : OperatorBreaks operator left right violated place) :
    checkBinary operator left right environment =
      (.error (.violation violated place), environment) := by
  cases broken with
  | left takes unfit =>
    obtain ⟨ordinary, asked⟩ := signature_of_takes takes
    rw [checkBinary, if_neg ordinary, asked]
    exact bind_error (requireOperand_break unfit) _
  | right takes fits unfit =>
    obtain ⟨ordinary, asked⟩ := signature_of_takes takes
    rw [checkBinary, if_neg ordinary, asked]
    simp only
    rw [bind_ok (requireOperand_run fits)]
    exact bind_error (requireOperand_break unfit) _
  | equality equal different =>
    rw [checkBinary, if_pos equal, different]
    rfl

end

section
variable {environment : Environment} {part : Part} {setting : Setting} {loops : Known Interface}
  {context : Known Ty} (represents : Represents environment part setting loops context)
include represents

theorem requireServer_run (server : setting.isServer) (construct : String) (place : Position) :
    requireServer (.of part setting.current.name) construct place environment =
      (.ok (), environment) := by
  obtain ⟨owner, houses⟩ := represents.houses
  have here : (Scope.of part setting.current.name).part = .server := houses.server.mpr server
  rw [requireServer, if_pos here]
  rfl

theorem requireServer_break (client : setting.isServer = false) (construct : String)
    (place : Position) :
    requireServer (.of part setting.current.name) construct place environment =
      (.error (.violation (.outsideServer construct) place), environment) := by
  obtain ⟨owner, houses⟩ := represents.houses
  have elsewhere : (Scope.of part setting.current.name).part ≠ .server := by
    intro here
    simp [houses.server.mp here] at client
  rw [requireServer, if_neg elsewhere]
  rfl

theorem requireClient_run (client : setting.isServer = false) (construct : String)
    (place : Position) :
    requireClient (.of part setting.current.name) construct place environment =
      (.ok (), environment) := by
  obtain ⟨owner, houses⟩ := represents.houses
  have elsewhere : (Scope.of part setting.current.name).part ≠ .server := by
    intro here
    simp [houses.server.mp here] at client
  rw [requireClient, if_neg elsewhere]
  rfl

theorem requireClient_break (server : setting.isServer) (construct : String) (place : Position) :
    requireClient (.of part setting.current.name) construct place environment =
      (.error (.violation (.outsideClient construct) place), environment) := by
  obtain ⟨owner, houses⟩ := represents.houses
  have here : (Scope.of part setting.current.name).part = .server := houses.server.mpr server
  rw [requireClient, if_pos here]
  rfl

/-- Resolving a name gives its type in the context, or finds it undeclared. -/
theorem resolve_run (name : String) (place : Position) :
    resolve (.of part setting.current.name) name place environment =
      (match setting.type? context name with
        | some type => .ok type
        | none => .error (.violation (.undefinedVariable name) place), environment) := by
  obtain ⟨⟨owner, houses⟩, function, found, holds⟩ := represents
  have groups := houses.groups name
  rw [resolve, Scope.part_of, bind_ok (part_run houses.found), Setting.type?, ← houses.tunnels name]
  cases group : setting.group? name with
  | some client =>
    rw [group] at groups
    generalize owner.group? name = seen at groups
    cases groups
    rfl
  | none =>
    rw [group] at groups
    rw [eq_none_of_rel groups]
    cases owner.tunnel? name with
    | some carried => rfl
    | none =>
      simp only
      rw [bind_ok (function_run found), holds.symbols name]
      cases context name <;> rfl

theorem boundClient_run {target : Identifier} {client : Interface}
    (bound : loops target.name = some client) :
    ∃ index, Offers environment index client ∧
      boundClient (.of part setting.current.name) target environment = (.ok index, environment) := by
  obtain ⟨-, function, found, holds⟩ := represents
  have bindings := holds.bindings target.name
  rw [boundClient, bind_ok (function_run found)]
  rw [bound] at bindings
  generalize function.bindings.find? target.name = seen at bindings ⊢
  cases bindings with
  | some offers => exact ⟨_, offers, rfl⟩

theorem boundClient_break {target : Identifier} (unbound : loops target.name = none) :
    boundClient (.of part setting.current.name) target environment =
      (.error (.violation (.unboundClient target.name) target.span.start), environment) := by
  obtain ⟨-, function, found, holds⟩ := represents
  have bindings := holds.bindings target.name
  rw [unbound] at bindings
  rw [boundClient, bind_ok (function_run found), eq_none_of_rel bindings]
  rfl

end

section
variable {part : Part} {setting : Setting} {loops : Known Interface}

theorem openVariable_run {environment : Environment} {context : Known Ty} {opened : Identifier}
    {type : Ty} (represents : Represents environment part setting loops context)
    (known : context opened.name = some type) (secret : type.isSecret) :
    openVariable (.of part setting.current.name) opened environment =
      (.ok type, setVariable (.of part setting.current.name) opened.name type.publicOf environment) := by
  obtain ⟨-, function, found, holds⟩ := represents
  rw [openVariable, bind_ok (function_run found), holds.symbols, known]
  simp only [secret, if_true]
  rfl

/-- Opened variables are closed again, so that the environment is as it was however the check ends. -/
theorem withOpened_run {α : Type} {environment : Environment} {context opened : Known Ty}
    {names : List Identifier} {check : Checking α} {result : Except Diagnostic α}
    (represents : Represents environment part setting loops context)
    (opens : Opens context names opened)
    (ran : ∀ inner, Represents inner part setting loops opened → check inner = (result, inner)) :
    withOpened (.of part setting.current.name) names check environment = (result, environment) := by
  induction opens generalizing environment with
  | nil => exact ran environment represents
  | @cons context opened first rest type known secret opens ih =>
    rw [withOpened, bind_ok (openVariable_run represents known secret)]
    rw [restoring, ih (represents.setVariable first.name type.publicOf) ran]
    obtain ⟨-, function, found, holds⟩ := represents
    simp only
    rw [setVariable_setVariable _ found ((holds.symbols _).trans known)]

theorem withOpened_break {α : Type} {environment : Environment} {context : Known Ty}
    {names : List Identifier} {violated : Violation} {place : Position} (check : Checking α)
    (represents : Represents environment part setting loops context)
    (broken : OpensBreak context names violated place) :
    withOpened (.of part setting.current.name) names check environment =
      (.error (.violation violated place), environment) := by
  induction broken generalizing environment with
  | undefined unknown =>
    obtain ⟨-, function, found, holds⟩ := represents
    rw [withOpened]
    apply bind_error
    rw [openVariable, bind_ok (function_run found), holds.symbols, unknown]
    rfl
  | notSecret known plain =>
    obtain ⟨-, function, found, holds⟩ := represents
    rw [withOpened]
    apply bind_error
    rw [openVariable, bind_ok (function_run found), holds.symbols, known]
    simp only [plain]
    rfl
  | @later context first rest type violated place known secret broken ih =>
    rw [withOpened, bind_ok (openVariable_run represents known secret)]
    rw [restoring, ih (represents.setVariable first.name type.publicOf)]
    obtain ⟨-, function, found, holds⟩ := represents
    simp only
    rw [setVariable_setVariable _ found ((holds.symbols _).trans known)]

mutual

theorem checkExpr_run {environment : Environment} {context : Known Ty} {expr : Expr}
    {typed : Typed.Expr} (represents : Represents environment part setting loops context)
    (derives : ExprDerives setting loops context expr typed) :
    checkExpr (.of part setting.current.name) expr environment = (.ok typed, environment) := by
  match expr with
  | .int value span | .bool value span | .string value span | .readInt span =>
    cases derives
    rfl
  | .symbol name span =>
    cases derives with
    | symbol known =>
      have resolved := resolve_run represents name span.start
      rw [known] at resolved
      rw [checkExpr, bind_ok resolved]
      rfl
  | .binary operator left right span =>
    cases derives with
    | binary first second operates =>
      rw [checkExpr, bind_ok (checkExpr_run represents first),
        bind_ok (checkExpr_run represents second), bind_ok (checkBinary_run operates)]
      rfl
  | .not operand span =>
    cases derives with
    | not derives truth =>
      rw [checkExpr, bind_ok (checkExpr_run represents derives), bind_ok (requireOperand_run truth)]
      rfl
  | .call called arguments callSpan span =>
    cases derives with
    | call member derive =>
      obtain ⟨owner, houses⟩ := represents.houses
      obtain ⟨function, rfl, called⟩ :=
        callee_run houses.found houses.functions member derive.length_eq
      rw [checkExpr, Scope.callTarget_of, bind_ok called, Scope.caller_of, bind_ok (checkArguments_run represents derive)]
      rfl
  | .invoke target called arguments callSpan span =>
    cases derives with
    | invoke server bound member derive =>
      obtain ⟨index, offers, resolved⟩ := boundClient_run represents bound
      obtain ⟨owner, registered, name, -, published⟩ := offers.registered
      obtain ⟨function, rfl, called⟩ := callee_run registered published member derive.length_eq
      rw [checkExpr, bind_ok (requireServer_run represents server _ _), bind_ok resolved,
        bind_ok called, Scope.caller_of, bind_ok (checkArguments_run represents derive),
        bind_ok (part_run registered), name]
      rfl
  | .put tunnel value callSpan span =>
    cases derives with
    | put client known derives =>
      obtain ⟨owner, houses⟩ := represents.houses
      have carried := carriedType_run houses.found ((houses.tunnels _).trans known)
      rw [checkExpr, bind_ok (requireClient_run represents client _ _), Scope.part_of]
      rw [bind_ok carried, bind_ok (checkExpr_run represents derives), if_pos rfl]
      rfl
  | .read tunnel reading callSpan span =>
    cases derives with
    | read client known =>
      obtain ⟨owner, houses⟩ := represents.houses
      have carried := carriedType_run houses.found ((houses.tunnels _).trans known)
      rw [checkExpr, bind_ok (requireClient_run represents client _ _), Scope.part_of]
      rw [bind_ok carried]
      rfl
  | .remotePut target tunnel value callSpan span => cases derives
  | .remoteRead target tunnel reading callSpan span =>
    cases derives with
    | remoteRead server bound known =>
      obtain ⟨index, offers, resolved⟩ := boundClient_run represents bound
      obtain ⟨owner, registered, name, tunnels, -⟩ := offers.registered
      rw [checkExpr, bind_ok (requireServer_run represents server _ _), bind_ok resolved,
        bind_ok (carriedType_run registered ((tunnels _).trans known)),
        bind_ok (part_run registered), name]
      rfl
  | .reveal body names span =>
    cases derives with
    | reveal server opens derives =>
      have opened := withOpened_run represents opens fun inner within => checkExpr_run within derives
      rw [checkExpr, bind_ok (requireServer_run represents server _ _), bind_ok opened]
      rfl
termination_by structural expr

theorem checkArguments_run {environment : Environment} {context : Known Ty} {called : String}
    {count : Nat} {parameters : List Binder} {arguments : List Expr} {typed : List Typed.Expr}
    (represents : Represents environment part setting loops context)
    (derive : ArgumentsDerive setting loops context (parameters.map Binder.type) arguments typed) :
    checkArguments (.of part setting.current.name) called count parameters arguments environment =
      (.ok typed, environment) := by
  match parameters, arguments with
  | [], [] =>
    cases derive
    rfl
  | [], _ :: _ | _ :: _, [] => cases derive
  | parameter :: parameters, argument :: arguments =>
    cases derive with
    | cons derives fits derive =>
      rw [checkArguments, bind_ok (checkExpr_run represents derives)]
      rw [bind_ok (requireArgument_run fits), bind_ok (checkArguments_run represents derive)]
      rfl
termination_by structural arguments

end

mutual

theorem checkExpr_break {environment : Environment} {context : Known Ty} {expr : Expr}
    {violated : Violation} {place : Position}
    (represents : Represents environment part setting loops context)
    (broken : ExprBreaks setting loops context expr violated place) :
    checkExpr (.of part setting.current.name) expr environment =
      (.error (.violation violated place), environment) := by
  match expr with
  | .int value span | .bool value span | .string value span | .readInt span =>
    cases broken with
    | outsideServer only _ | outsideClient only _ => cases only
  | .symbol name span =>
    cases broken with
    | outsideServer only _ | outsideClient only _ => cases only
    | symbol unknown =>
      have resolved := resolve_run represents name span.start
      rw [unknown] at resolved
      rw [checkExpr]
      exact bind_error resolved _
  | .binary operator left right span =>
    cases broken with
    | outsideServer only _ | outsideClient only _ => cases only
    | left broken =>
      rw [checkExpr]
      exact bind_error (checkExpr_break represents broken) _
    | right first broken =>
      rw [checkExpr, bind_ok (checkExpr_run represents first)]
      exact bind_error (checkExpr_break represents broken) _
    | operator first second broken =>
      rw [checkExpr, bind_ok (checkExpr_run represents first),
        bind_ok (checkExpr_run represents second)]
      exact bind_error (checkBinary_break broken) _
  | .not operand span =>
    cases broken with
    | outsideServer only _ | outsideClient only _ => cases only
    | operand broken =>
      rw [checkExpr]
      exact bind_error (checkExpr_break represents broken) _
    | notTruth derives unfit =>
      rw [checkExpr, bind_ok (checkExpr_run represents derives)]
      exact bind_error (requireOperand_break unfit) _
  | .call called arguments callSpan span =>
    obtain ⟨owner, houses⟩ := represents.houses
    cases broken with
    | outsideServer only _ | outsideClient only _ => cases only
    | callee broken =>
      rw [← houses.name] at broken
      rw [checkExpr]
      exact bind_error (callee_break houses.found houses.functions broken) _
    | arguments member arity broken =>
      obtain ⟨function, rfl, called⟩ := callee_run houses.found houses.functions member arity
      rw [checkExpr, Scope.callTarget_of, bind_ok called, Scope.caller_of]
      exact bind_error (checkArguments_break represents broken) _
  | .invoke target called arguments callSpan span =>
    cases broken with
    | outsideServer only client =>
      cases only
      rw [checkExpr]
      exact bind_error (requireServer_break represents client _ _) _
    | outsideClient only _ => cases only
    | unbound server unbound =>
      rw [checkExpr, bind_ok (requireServer_run represents server _ _)]
      exact bind_error (boundClient_break represents unbound) _
    | remoteCallee server bound broken =>
      obtain ⟨index, offers, resolved⟩ := boundClient_run represents bound
      obtain ⟨owner, registered, name, -, published⟩ := offers.registered
      rw [← name] at broken
      rw [checkExpr, bind_ok (requireServer_run represents server _ _), bind_ok resolved]
      exact bind_error (callee_break registered published broken) _
    | remoteArguments server bound member arity broken =>
      obtain ⟨index, offers, resolved⟩ := boundClient_run represents bound
      obtain ⟨owner, registered, -, -, published⟩ := offers.registered
      obtain ⟨function, rfl, called⟩ := callee_run registered published member arity
      rw [checkExpr, bind_ok (requireServer_run represents server _ _), bind_ok resolved,
        bind_ok called, Scope.caller_of]
      exact bind_error (checkArguments_break represents broken) _
  | .put tunnel value callSpan span =>
    obtain ⟨owner, houses⟩ := represents.houses
    cases broken with
    | outsideServer only _ => cases only
    | outsideClient only server =>
      cases only
      rw [checkExpr]
      exact bind_error (requireClient_break represents server _ _) _
    | putUndefined client unknown =>
      rw [checkExpr, bind_ok (requireClient_run represents client _ _), ← houses.name]
      exact bind_error (carriedType_break houses.found ((houses.tunnels _).trans unknown)) _
    | putValue client known broken =>
      have carried := carriedType_run houses.found ((houses.tunnels _).trans known)
      rw [checkExpr, bind_ok (requireClient_run represents client _ _), Scope.part_of]
      rw [bind_ok carried]
      exact bind_error (checkExpr_break represents broken) _
    | putMismatch client known derives different =>
      have carried := carriedType_run houses.found ((houses.tunnels _).trans known)
      rw [checkExpr, bind_ok (requireClient_run represents client _ _), Scope.part_of]
      rw [bind_ok carried, bind_ok (checkExpr_run represents derives), if_neg different]
      rfl
  | .read tunnel reading callSpan span =>
    obtain ⟨owner, houses⟩ := represents.houses
    cases broken with
    | outsideServer only _ => cases only
    | outsideClient only server =>
      cases only
      rw [checkExpr]
      exact bind_error (requireClient_break represents server _ _) _
    | readUndefined client unknown =>
      rw [checkExpr, bind_ok (requireClient_run represents client _ _), ← houses.name]
      exact bind_error (carriedType_break houses.found ((houses.tunnels _).trans unknown)) _
  | .remotePut target tunnel value callSpan span =>
    cases broken with
    | outsideServer only client =>
      cases only
      rw [checkExpr]
      exact bind_error (requireServer_break represents client _ _) _
    | outsideClient only _ => cases only
    | remotePut server =>
      rw [checkExpr, bind_ok (requireServer_run represents server _ _)]
      rfl
  | .remoteRead target tunnel reading callSpan span =>
    cases broken with
    | outsideServer only client =>
      cases only
      rw [checkExpr]
      exact bind_error (requireServer_break represents client _ _) _
    | outsideClient only _ => cases only
    | remoteUnbound server unbound =>
      rw [checkExpr, bind_ok (requireServer_run represents server _ _)]
      exact bind_error (boundClient_break represents unbound) _
    | remoteUndefined server bound unknown =>
      obtain ⟨index, offers, resolved⟩ := boundClient_run represents bound
      obtain ⟨owner, registered, name, tunnels, -⟩ := offers.registered
      rw [checkExpr, bind_ok (requireServer_run represents server _ _), bind_ok resolved, ← name]
      exact bind_error (carriedType_break registered ((tunnels _).trans unknown)) _
  | .reveal body names span =>
    cases broken with
    | outsideServer only client =>
      cases only
      rw [checkExpr]
      exact bind_error (requireServer_break represents client _ _) _
    | outsideClient only _ => cases only
    | opens server broken =>
      rw [checkExpr, bind_ok (requireServer_run represents server _ _)]
      exact bind_error (withOpened_break _ represents broken) _
    | revealed server opens broken =>
      rw [checkExpr, bind_ok (requireServer_run represents server _ _)]
      exact bind_error
        (withOpened_run represents opens fun inner within => checkExpr_break within broken) _
termination_by structural expr

theorem checkArguments_break {environment : Environment} {context : Known Ty} {called : String}
    {count : Nat} {parameters : List Binder} {arguments : List Expr} {violated : Violation}
    {place : Position} (represents : Represents environment part setting loops context)
    (broken : ArgumentsBreak setting loops called context count (parameters.map Binder.type) arguments
      violated place) :
    checkArguments (.of part setting.current.name) called count parameters arguments environment =
      (.error (.violation violated place), environment) := by
  match parameters, arguments with
  | [], [] | [], _ :: _ | _ :: _, [] => cases broken
  | parameter :: parameters, argument :: arguments =>
    cases broken with
    | argument broken =>
      rw [checkArguments]
      exact bind_error (checkExpr_break represents broken) _
    | mismatch derives unfit =>
      rw [checkArguments, bind_ok (checkExpr_run represents derives)]
      apply bind_error
      rw [requireArgument, unfit]
      rfl
    | later derives fits broken =>
      rw [checkArguments, bind_ok (checkExpr_run represents derives)]
      rw [bind_ok (requireArgument_run fits)]
      exact bind_error (checkArguments_break represents broken) _
termination_by structural arguments

end

end
end Typing
end Multiparty
