import Multiparty.Proofs.Scripts
import Multiparty.Proofs.StatementChecks

/-! What is known at every moment of a check. From the empty environment on, one moment follows from another by the
operations of the checker, so that all that they keep holds at each of them. -/

namespace Multiparty.Typing
open Checking Environment Relation

theorem steps_coherent {before after : Moment} (steps : ReflTransGen Moment.Step before after)
    (coherent : before.Coherent) : after.Coherent := by
  induction steps with
  | refl => exact coherent
  | tail _ step ih => exact step.coherent ih

namespace Script

/-- Every moment of the script follows by operations from the one that it begins at. -/
def ProceedsFrom {α : Type} (before : Moment) (script : Script α) : Prop :=
  ∀ after, script.Visits before after → ReflTransGen Moment.Step before after

/-- So it does wherever it begins in a coherent environment. -/
def Proceeds {α : Type} (standing : Option Standing) (script : Script α) : Prop :=
  ∀ environment, Moment.Coherent ⟨standing, environment⟩ → script.ProceedsFrom ⟨standing, environment⟩

section
variable {α β : Type} {standing : Option Standing} {environment : Environment}

theorem step_proceedsFrom {check : Checking α}
    (single : ReflTransGen Moment.Step ⟨standing, environment⟩ ⟨standing, (check environment).2⟩) :
    (step check).ProceedsFrom ⟨standing, environment⟩ := by
  intro after visit
  cases visit with
  | start => exact .refl
  | finish => exact single

theorem step_proceeds {check : Checking α} (restores : Restores check) : (step check).Proceeds standing :=
  fun environment _ => step_proceedsFrom (by rw [restores environment])

theorem pure_proceeds (value : α) : (pure value : Script α).Proceeds standing :=
  step_proceeds (restores_pure value)

theorem violation_proceeds (violated : Violation) (place : Position) :
    (step (violation violated place) : Script α).Proceeds standing :=
  step_proceeds (restores_violation violated place)

theorem ite_proceeds {condition : Prop} [Decidable condition] {script other : Script α}
    (proceeds : script.Proceeds standing) (others : other.Proceeds standing) :
    (if condition then script else other).Proceeds standing := by
  split
  · exact proceeds
  · exact others

theorem ProceedsFrom.bind {first : Script α} {next : α → Script β} (coherent : Moment.Coherent ⟨standing, environment⟩)
    (proceeds : first.ProceedsFrom ⟨standing, environment⟩)
    (others : ∀ {value later}, first.run environment = (.ok value, later) →
      Moment.Coherent ⟨standing, later⟩ → (next value).ProceedsFrom ⟨standing, later⟩) :
    (first >>= next).ProceedsFrom ⟨standing, environment⟩ := by
  have last : ReflTransGen Moment.Step ⟨standing, environment⟩ ⟨standing, (first.run environment).2⟩ :=
    proceeds _ .finish
  -- what follows begins where the first script ended, in an environment that is coherent again
  have passes {value : α} {later : Environment} {after : Moment} (ran : first.run environment = (.ok value, later))
      (visit : (next value).Visits ⟨standing, later⟩ after) :
      ReflTransGen Moment.Step ⟨standing, environment⟩ after := by
    rw [ran] at last
    exact last.trans (others ran (steps_coherent last coherent) _ visit)
  intro after visit
  cases visit with
  | start => exact .refl
  | finish =>
    simp only [run_bind]
    rcases ran : first.run environment with ⟨result, later⟩
    cases result with
    | error =>
      rw [bind_error ran]
      rw [ran] at last
      exact last
    | ok value =>
      rw [bind_ok ran]
      exact passes ran .finish
  | first visit => exact proceeds _ visit
  | next ran visit => exact passes ran visit

theorem Proceeds.bind {first : Script α} {next : α → Script β} (proceeds : first.Proceeds standing)
    (others : ∀ value, (next value).Proceeds standing) : (first >>= next).Proceeds standing :=
  fun environment coherent => (proceeds environment coherent).bind coherent fun _ later => others _ _ later

theorem observe_bind_proceedsFrom {view : Environment → α} {next : α → Script β}
    (coherent : Moment.Coherent ⟨standing, environment⟩)
    (proceeds : (next (view environment)).ProceedsFrom ⟨standing, environment⟩) :
    (step (observe view) >>= next).ProceedsFrom ⟨standing, environment⟩ := by
  refine ProceedsFrom.bind coherent (step_proceeds (restores_observe view) _ coherent) fun seen _ => ?_
  cases seen
  exact proceeds

/-- What does not depend on the environment may refuse the program, and changes nothing. -/
theorem ofExcept_bind_proceedsFrom {result : Except Diagnostic α} {next : α → Script β}
    (coherent : Moment.Coherent ⟨standing, environment⟩)
    (proceeds : ∀ value, result = .ok value → (next value).ProceedsFrom ⟨standing, environment⟩) :
    (step (ofExcept result) >>= next).ProceedsFrom ⟨standing, environment⟩ := by
  refine ProceedsFrom.bind coherent (step_proceeds (fun _ => rfl) _ coherent) fun ran _ => ?_
  obtain ⟨same, rfl⟩ := Prod.mk.inj ran
  exact proceeds _ same

theorem restoring_proceedsFrom {restore : Environment → Environment} {inner : Script α}
    (proceeds : inner.ProceedsFrom ⟨standing, environment⟩)
    (restores : Moment.Step ⟨standing, (inner.run environment).2⟩ ⟨standing, restore (inner.run environment).2⟩) :
    (restoring restore inner).ProceedsFrom ⟨standing, environment⟩ := by
  intro after visit
  cases visit with
  | start => exact .refl
  | finish => exact (proceeds _ .finish).tail restores
  | restoring visit => exact proceeds _ visit

theorem each_proceeds {item : α → Script β} (proceeds : ∀ value, (item value).Proceeds standing) (items : List α) :
    (each item items).Proceeds standing := by
  induction items with
  | nil => exact pure_proceeds _
  | cons first rest ih => exact (proceeds first).bind fun _ => ih.bind fun _ => pure_proceeds _

end

section
variable {standing : Option Standing} {environment : Environment} {scope : Scope}

theorem apart_of_declare {binder : Binder} {later : Environment} {owner : PartScope}
    (registered : environment.part? scope.part = some owner)
    (ran : declare scope binder environment = (.ok (), later)) :
    owner.tunnel? binder.name.name = none ∧ owner.group? binder.name.name = none := by
  rw [declare, bind_ok (part_run registered)] at ran
  split at ran
  next => cases ran
  next noTunnel =>
    split at ran
    next => cases ran
    next noGroup => exact ⟨by simpa using noTunnel, by simpa using noGroup⟩

theorem declare_proceeds (binder : Binder) : (step (declare scope binder)).Proceeds standing := by
  intro environment _
  apply step_proceedsFrom
  rcases declare_cases scope binder environment with ⟨diagnostic, ran⟩ | ⟨function, found, unknown, ran⟩
  · rw [ran]
  · obtain ⟨owner, registered, -⟩ := Option.bind_eq_some_iff.mp found
    obtain ⟨noTunnel, noGroup⟩ := apart_of_declare registered ran
    rw [ran]
    exact .single (.declare registered noTunnel noGroup found unknown)

theorem isSecret_of_openVariable {opened : Identifier} {function : FunctionScope} {type : Ty} {later : Environment}
    (found : environment.function? scope = some function) (known : function.symbols.find? opened.name = some type)
    (ran : openVariable scope opened environment = (.ok type, later)) : type.isSecret := by
  rw [openVariable, bind_ok (function_run found)] at ran
  cases secret : type.isSecret with
  | true => rfl
  | false =>
    simp only [known, secret] at ran
    cases ran

/-- A variable that was given a type is known with it. -/
theorem symbol_setVariable {function : FunctionScope} (found : environment.function? scope = some function)
    (name : String) (type : Ty) :
    ∃ later, (setVariable scope name type environment).function? scope = some later ∧
      later.bindings = function.bindings ∧ later.symbols.find? name = some type := by
  refine ⟨_, function?_changed found, rfl, ?_⟩
  exact (Names.find?_set _ _ _ _).trans (if_pos rfl)

/-- A variable that was opened is closed by the same operation in the end, since no loop stands for it. -/
theorem opened_proceeds {α : Type} {inner : Script α} (restores : Restores inner.run)
    (proceeds : inner.Proceeds standing) (names : List Identifier) :
    (opened scope names inner).Proceeds standing := by
  induction names with
  | nil => exact proceeds
  | cons opened rest ih =>
    intro environment coherent
    rcases openVariable_cases scope opened environment with
      ⟨diagnostic, ran⟩ | ⟨function, secret, found, known, ran⟩
    · refine ProceedsFrom.bind coherent (step_proceedsFrom (by rw [ran])) fun other _ => ?_
      cases ran.symm.trans other
    · have secretly := isSecret_of_openVariable found known ran
      have unbound : function.bindings.find? opened.name = none := by
        refine unbound_of_ne_client coherent.environment found fun client => ?_
        cases known.symm.trans client
        cases secretly
      refine ProceedsFrom.bind coherent
        (step_proceedsFrom (by rw [ran]; exact .single (.opening found known secretly))) fun same later => ?_
      cases ran.symm.trans same
      refine restoring_proceedsFrom (ih _ later) ?_
      rw [run_opened, withOpened_restores scope restores rest]
      obtain ⟨later, foundLater, bindings, seen⟩ := symbol_setVariable found opened.name secret.publicOf
      exact .closing foundLater seen (bindings ▸ unbound)

theorem looping_proceedsFrom {α : Type} {inner : Script α} {loops : List String} {function : FunctionScope}
    {name : String} {client : Nat} (coherent : Moment.Coherent ⟨some ⟨scope, loops⟩, environment⟩)
    (found : environment.function? scope = some function) (known : function.symbols.find? name = some .client)
    (unbound : function.bindings.find? name = none) (registered : client < environment.clients.length)
    (proceeds : inner.Proceeds (some ⟨scope, name :: loops⟩)) :
    (looping scope name client inner).ProceedsFrom ⟨some ⟨scope, loops⟩, environment⟩ := by
  have bound : Moment.Step ⟨some ⟨scope, loops⟩, environment⟩
      ⟨some ⟨scope, name :: loops⟩, bindVariable scope name client environment⟩ := .bind found known registered
  have inside := proceeds _ (bound.coherent coherent)
  have outer : name ∉ loops := by
    obtain ⟨current, foundToo, enclosed⟩ := coherent.enclosed rfl
    cases found.symm.trans foundToo
    rw [← enclosed, unbound]
    nofun
  intro after visit
  cases visit with
  | start => exact .refl
  | finish => exact .trans (.head bound (inside _ .finish)) (.single (.unbind outer))
  | looping visit => exact .head bound (inside _ visit)

/-- The loop variable is declared as a client and stands for one that is registered. -/
theorem loop_proceedsFrom {α : Type} {inner : Script α} {loops : List String} {binder : Binder} {client : Nat}
    (coherent : Moment.Coherent ⟨some ⟨scope, loops⟩, environment⟩) (type : binder.type = .client)
    (registered : client < environment.clients.length)
    (proceeds : inner.Proceeds (some ⟨scope, binder.name.name :: loops⟩)) :
    (loop scope binder client inner).ProceedsFrom ⟨some ⟨scope, loops⟩, environment⟩ := by
  refine ProceedsFrom.bind coherent (declare_proceeds binder _ coherent) fun {value later} ran after => ?_
  rw [run_step] at ran
  rcases declare_cases scope binder environment with ⟨diagnostic, other⟩ | ⟨function, found, unknown, other⟩
  · cases other.symm.trans ran
  · cases other.symm.trans ran
    obtain ⟨later, foundLater, bindings, known⟩ := symbol_setVariable found binder.name.name binder.type
    refine looping_proceedsFrom after foundLater (type ▸ known) ?_ ?_ proceeds
    · rw [bindings]
      exact unbound_of_ne_client coherent.environment found (unknown ▸ nofun)
    · rwa [← (setVariable_sameShape environment scope binder.name.name binder.type).count]

end

mutual

theorem ofExpr_proceeds (standing : Option Standing) (scope : Scope) (expr : Expr) :
    (ofExpr scope expr).Proceeds standing := by
  cases expr with
  | binary operator left right span =>
    rw [ofExpr]
    refine (ofExpr_proceeds standing scope left).bind fun typedLeft => ?_
    refine (ofExpr_proceeds standing scope right).bind fun typedRight => ?_
    exact (step_proceeds (checkBinary_restores _ _ _)).bind fun _ => pure_proceeds _
  | not operand span =>
    rw [ofExpr]
    refine (ofExpr_proceeds standing scope operand).bind fun typed => ?_
    exact (step_proceeds (requireOperand_restores _ _ _ _)).bind fun _ => pure_proceeds _
  | call called arguments callSpan span =>
    rw [ofExpr]
    refine (step_proceeds (callee_restores _ _ _ _)).bind fun function => ?_
    exact (ofArguments_proceeds standing _ _ _ _ arguments).bind fun _ => pure_proceeds _
  | invoke target called arguments callSpan span =>
    rw [ofExpr]
    refine (step_proceeds (requireServer_restores _ _ _)).bind fun _ => ?_
    refine (step_proceeds (boundClient_restores _ _)).bind fun client => ?_
    refine (step_proceeds (callee_restores _ _ _ _)).bind fun function => ?_
    refine (ofArguments_proceeds standing _ _ _ _ arguments).bind fun typed => ?_
    exact (step_proceeds (part_restores _)).bind fun _ => pure_proceeds _
  | put tunnel value callSpan span =>
    rw [ofExpr]
    refine (step_proceeds (requireClient_restores _ _ _)).bind fun _ => ?_
    refine (step_proceeds (carriedType_restores _ _)).bind fun carried => ?_
    refine (ofExpr_proceeds standing scope value).bind fun typed => ?_
    exact ite_proceeds (pure_proceeds _) (violation_proceeds _ _)
  | reveal body names span =>
    rw [ofExpr]
    refine (step_proceeds (requireServer_restores _ _ _)).bind fun _ => ?_
    have restores : Restores (ofExpr scope body).run := run_ofExpr scope body ▸ checkExpr_restores scope body
    exact (opened_proceeds restores (ofExpr_proceeds standing scope body) names).bind fun _ => pure_proceeds _
  | int | bool | string | symbol | read | remotePut | remoteRead | readInt =>
    exact step_proceeds (checkExpr_restores scope _)
termination_by structural expr

theorem ofArguments_proceeds (standing : Option Standing) (scope : Scope) (called : String) (place : Nat)
    (parameters : List Binder) (arguments : List Expr) :
    (ofArguments scope called place parameters arguments).Proceeds standing := by
  match parameters, arguments with
  | [], [] | [], _ :: _ | _ :: _, [] => exact pure_proceeds _
  | parameter :: parameters, argument :: arguments =>
    rw [ofArguments]
    refine (ofExpr_proceeds standing scope argument).bind fun typed => ?_
    refine (step_proceeds (requireArgument_restores _ _ _ _)).bind fun _ => ?_
    exact (ofArguments_proceeds standing _ _ _ _ arguments).bind fun _ => pure_proceeds _
termination_by structural arguments

end

section
variable (standing : Option Standing) (scope : Scope)

theorem ofAssignment_proceeds (assignment : Assignment) : (ofAssignment scope assignment).Proceeds standing := by
  refine (step_proceeds (function_restores scope)).bind fun current => ?_
  split
  · exact violation_proceeds _ _
  · refine (ofExpr_proceeds standing scope assignment.value).bind fun typed => ?_
    exact ite_proceeds (pure_proceeds _) (violation_proceeds _ _)

theorem ofInitial_proceeds (initial : Option Assignment) : (ofInitial scope initial).Proceeds standing := by
  cases initial with
  | none => exact pure_proceeds _
  | some assignment => exact (ofAssignment_proceeds standing scope assignment).bind fun _ => pure_proceeds _

theorem ofCondition_proceeds (construct : String) (condition : Expr) :
    (ofCondition scope construct condition).Proceeds standing :=
  (ofExpr_proceeds standing scope condition).bind fun _ =>
    ite_proceeds (pure_proceeds _) (violation_proceeds _ _)

theorem ofReturned_proceeds (value : Option Expr) : (ofReturned scope value).Proceeds standing := by
  cases value with
  | none => exact pure_proceeds _
  | some value => exact (ofExpr_proceeds standing scope value).bind fun _ => pure_proceeds _

end

/-- A group stands for a registered client. -/
theorem registered_of_groupClient {standing : Option Standing} {environment : Environment} {scope : Scope}
    {group : Identifier} {client : Nat} {later : Environment} (coherent : Moment.Coherent ⟨standing, environment⟩)
    (ran : groupClient scope group environment = (.ok client, later)) : client < environment.clients.length := by
  rw [groupClient] at ran
  cases registered : environment.part? scope.part with
  | none =>
    rw [bind_error (part_unregistered registered)] at ran
    cases ran
  | some owner =>
    rw [bind_ok (part_run registered)] at ran
    cases known : owner.group? group.name with
    | none =>
      simp only [known] at ran
      cases ran
    | some found =>
      simp only [known] at ran
      cases ran
      exact (coherent.environment.parts registered).groups known

mutual

theorem ofStmt_proceeds (options : Options) (scope : Scope) (loops : List String) (stmt : Stmt) :
    (ofStmt options scope stmt).Proceeds (some ⟨scope, loops⟩) := by
  cases stmt with
  | declaration binder initial span =>
    rw [ofStmt]
    refine (declare_proceeds binder).bind fun _ => ?_
    exact (ofInitial_proceeds _ scope initial).bind fun _ => pure_proceeds _
  | assign assignment span =>
    exact (ofAssignment_proceeds _ scope assignment).bind fun _ => pure_proceeds _
  | expression value span => exact (ofExpr_proceeds _ scope value).bind fun _ => pure_proceeds _
  | display value span =>
    refine (ofExpr_proceeds _ scope value).bind fun typed => ?_
    exact ite_proceeds (violation_proceeds _ _) (pure_proceeds _)
  | ifThen condition body span =>
    rw [ofStmt]
    refine (ofCondition_proceeds _ scope _ condition).bind fun typed => ?_
    exact (ofStmt_proceeds options scope loops body).bind fun _ => pure_proceeds _
  | ifElse condition body otherwise span =>
    rw [ofStmt]
    refine (ofCondition_proceeds _ scope _ condition).bind fun typed => ?_
    refine (ofStmt_proceeds options scope loops body).bind fun typedBody => ?_
    exact (ofStmt_proceeds options scope loops otherwise).bind fun _ => pure_proceeds _
  | whileLoop condition body span =>
    rw [ofStmt]
    refine (ofCondition_proceeds _ scope _ condition).bind fun typed => ?_
    exact (ofStmt_proceeds options scope loops body).bind fun _ => pure_proceeds _
  | forEach binder group body span =>
    rw [ofStmt]
    refine (step_proceeds (requireServer_restores _ _ _)).bind fun _ => ?_
    split
    next type =>
      intro environment coherent
      refine ProceedsFrom.bind coherent (step_proceeds (groupClient_restores scope group) _ coherent)
        fun {client later} ran after => ?_
      -- the client was registered before the lookup, which leaves the environment as it was
      have kept := groupClient_restores scope group environment
      have registered := registered_of_groupClient coherent ran
      rw [run_step] at ran
      rw [ran] at kept
      subst kept
      refine ProceedsFrom.bind after (loop_proceedsFrom after type registered
        (ofStmt_proceeds options scope _ body)) fun _ last => ?_
      exact (step_proceeds (part_restores _)).bind (fun _ => pure_proceeds _) _ last
    next => exact violation_proceeds _ _
  | returns value span =>
    refine (step_proceeds (function_restores scope)).bind fun current => ?_
    refine (ofReturned_proceeds _ scope value).bind fun typed => ?_
    exact ite_proceeds (pure_proceeds _) (violation_proceeds _ _)
  | block body span =>
    rw [ofStmt]
    exact (ofStmts_proceeds options scope loops body).bind fun _ => pure_proceeds _
termination_by structural stmt

theorem ofStmts_proceeds (options : Options) (scope : Scope) (loops : List String) (stmts : List Stmt) :
    (ofStmts options scope stmts).Proceeds (some ⟨scope, loops⟩) := by
  cases stmts with
  | nil => exact pure_proceeds _
  | cons first rest =>
    rw [ofStmts]
    refine (ofStmt_proceeds options scope loops first).bind fun typed => ?_
    exact (ofStmts_proceeds options scope loops rest).bind fun _ => pure_proceeds _
termination_by structural stmts

end

section
variable {environment : Environment}

theorem within_proceedsFrom {α : Type} {scope : Scope} {inner : Script α} {function : FunctionScope}
    (coherent : Moment.Coherent ⟨none, environment⟩) (found : environment.function? scope = some function)
    (unbound : function.bindings = .empty) (proceeds : inner.Proceeds (some ⟨scope, []⟩)) :
    (within scope inner).ProceedsFrom ⟨none, environment⟩ := by
  have entered : Moment.Step ⟨none, environment⟩ ⟨some ⟨scope, []⟩, environment⟩ := .enter found unbound
  have inside := proceeds _ (entered.coherent coherent)
  intro after visit
  cases visit with
  | start => exact .refl
  | finish => exact .trans (.head entered (inside _ .finish)) (.single .leave)
  | within visit => exact .head entered (inside _ visit)

theorem admitFunction_cases (target : Part) (function : Function) (environment : Environment) :
    (∃ diagnostic, admitFunction target function environment = (.error diagnostic, environment)) ∨
      ∃ owner, environment.part? target = some owner ∧ owner.functions.find? function.name.name = none ∧
        (target ≠ .server → isTunnelOperation function.name.name = false) ∧
        admitFunction target function environment = (.ok (), registerFunction target function environment) := by
  rw [admitFunction]
  cases registered : environment.part? target with
  | none => exact .inl ⟨_, bind_error (part_unregistered registered) _⟩
  | some owner =>
    rw [bind_ok (part_run registered)]
    split
    next => exact .inl ⟨_, rfl⟩
    next unknown =>
      split
      next => exact .inl ⟨_, rfl⟩
      next allowed =>
        rw [Names.contains, Option.not_isSome_iff_eq_none] at unknown
        refine .inr ⟨owner, rfl, unknown, fun client => ?_, rfl⟩
        simpa [client] using allowed

theorem function?_registerFunction {target : Part} {owner : PartScope} {function : Function}
    (registered : environment.part? target = some owner) :
    (registerFunction target function environment).function? (.of target function.name.name) =
      some (.of function) := by
  simp [function?, Scope.of, registerFunction, part?_updatePart, registered, Names.find?_set]

theorem ofFunction_proceeds (options : Options) (target : Part) (function : Function) :
    (ofFunction options target function).Proceeds none := by
  intro environment coherent
  rcases admitFunction_cases target function environment with
    ⟨diagnostic, ran⟩ | ⟨owner, registered, unknown, allowed, ran⟩
  · refine ProceedsFrom.bind coherent (step_proceedsFrom (by rw [ran])) fun other _ => ?_
    cases ran.symm.trans other
  · refine ProceedsFrom.bind coherent
      (step_proceedsFrom (by rw [ran]; exact .single (.function registered unknown allowed))) fun same later => ?_
    cases ran.symm.trans same
    refine within_proceedsFrom later (function?_registerFunction registered) rfl ?_
    refine (each_proceeds (fun binder => declare_proceeds binder) function.parameters).bind fun _ => ?_
    exact (ofStmts_proceeds options _ [] function.body).bind fun _ => pure_proceeds _

theorem ofClient_proceeds (options : Options) (client : Client) : (ofClient options client).Proceeds none := by
  intro environment coherent
  refine observe_bind_proceedsFrom coherent ?_
  split
  next => exact violation_proceeds _ _ _ coherent
  next fresh =>
    refine ofExcept_bind_proceedsFrom coherent fun tunnels declared => ?_
    refine observe_bind_proceedsFrom coherent ?_
    refine ProceedsFrom.bind coherent (step_proceedsFrom (.single (.client fresh declared))) fun ran after => ?_
    cases ran
    refine Proceeds.bind ?_ (fun _ => pure_proceeds _) _ after
    exact each_proceeds (ofFunction_proceeds options _) client.functions

theorem ofServer_proceeds (options : Options) (server : Server) : (ofServer options server).Proceeds none := by
  intro environment coherent
  refine observe_bind_proceedsFrom coherent ?_
  refine ofExcept_bind_proceedsFrom coherent fun groups declared => ?_
  refine ProceedsFrom.bind coherent (step_proceedsFrom (.single (.server declared))) fun ran after => ?_
  cases ran
  refine Proceeds.bind ?_ (fun _ => pure_proceeds _) _ after
  exact each_proceeds (ofFunction_proceeds options _) server.functions

theorem ofParts_proceeds (options : Options) (program : Program) : (ofParts options program).Proceeds none :=
  (each_proceeds (ofClient_proceeds options) program.clients).bind fun _ =>
    (ofServer_proceeds options program.server).bind fun _ => pure_proceeds _

end

end Script

/-- A moment in the check of a program, which begins with nothing known. -/
def Reached (options : Options) (program : Program) (moment : Moment) : Prop :=
  (Script.ofParts options program).Visits ⟨none, .empty⟩ moment

/-- A variable of a function is what an expression in it means by its name. -/
theorem resolve_symbol {environment : Environment} (coherent : environment.Coherent) {scope : Scope}
    {function : FunctionScope} (found : environment.function? scope = some function) {name : String} {type : Ty}
    (known : function.symbols.find? name = some type) (place : Position) :
    resolve scope name place environment = (.ok type, environment) := by
  obtain ⟨owner, registered, holds⟩ := function_coherent coherent found
  obtain ⟨noTunnel, noGroup⟩ := holds.apart (by rw [known]; rfl)
  rw [resolve, bind_ok (part_run registered)]
  simp only [noTunnel, noGroup]
  rw [bind_ok (function_run found)]
  simp only [known]
  rfl

/-- What is known is coherent at every moment of the check of a program: the moments follow one another by operations
of the checker, and each of these keeps it so. -/
theorem coherent_of_reached (options : Options) (program : Program) :
    (Script.ofParts options program).run = checkParts options program ∧
      (∀ before after : Moment, before.Step after → before.Coherent → after.Coherent) ∧
      ∀ moment, Reached options program moment →
        ReflTransGen Moment.Step ⟨none, .empty⟩ moment ∧ moment.Coherent ∧
          ∀ scope function name type place, moment.environment.function? scope = some function →
            function.symbols.find? name = some type →
            resolve scope name place moment.environment = (.ok type, moment.environment) := by
  refine ⟨Script.run_ofParts options program, fun _ _ step => step.coherent, fun moment reached => ?_⟩
  have steps := Script.ofParts_proceeds options program _ coherent_empty _ reached
  have coherent := steps_coherent steps coherent_empty
  exact ⟨steps, coherent, fun _ _ _ _ place found known => resolve_symbol coherent.environment found known place⟩

/-- A server that opens a secret in a loop. -/
def gathering : Program :=
  let identifier (name : String) : Identifier := ⟨name, .nowhere⟩
  let shown : Stmt := .display (.reveal (.symbol "total" .nowhere) [identifier "total"] .nowhere) .nowhere
  let visit : Stmt := .forEach ⟨.client, identifier "member", .nowhere⟩ (identifier "parties") shown .nowhere
  { clients := [⟨identifier "Party", [], [], .nowhere⟩]
    server := ⟨identifier "Dealer", [⟨identifier "Party", identifier "parties", .nowhere⟩],
      [⟨.void, identifier "gather", [⟨.sint, identifier "total", .nowhere⟩], [visit], .nowhere⟩], .nowhere⟩
    span := .nowhere }

/-- A moment within the loop and the `open`. -/
theorem coherent_of_reached_gathering :
    ∃ environment, Reached ⟨false⟩ gathering ⟨some ⟨.of .server "gather", ["member"]⟩, environment⟩ ∧
      (environment.function? (.of .server "gather")).map
          (fun function => (function.symbols, function.bindings)) =
        some ([("total", .int), ("member", .client)], [("member", 0)]) ∧
      Moment.Coherent ⟨some ⟨.of .server "gather", ["member"]⟩, environment⟩ := by
  have reached : ∃ environment,
      Reached ⟨false⟩ gathering ⟨some ⟨.of .server "gather", ["member"]⟩, environment⟩ ∧
      (environment.function? (.of .server "gather")).map
          (fun function => (function.symbols, function.bindings)) =
        some ([("total", .int), ("member", .client)], [("member", 0)]) := by
    apply Exists.intro
    apply And.intro
    · refine Script.Visits.next rfl (.first ?_)
      -- the server and its only function
      refine .next rfl (.next rfl (.next rfl (.first (.first (.next rfl (.within ?_))))))
      -- the loop
      refine .next rfl (.first (.first (.next rfl (.next rfl (.first (.next rfl (.looping ?_)))))))
      -- the `open` in it
      exact .first (.next rfl (.first (.next rfl (.restoring .start))))
    · rfl
  obtain ⟨environment, inside, seen⟩ := reached
  exact ⟨environment, inside, seen, ((coherent_of_reached ⟨false⟩ gathering).2.2 _ inside).2.1⟩

end Multiparty.Typing
