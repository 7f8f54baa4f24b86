import Multiparty.Proofs.ExpressionChecks

/-! Checking a statement follows the rules. The environment it leaves represents the context after the
statement, and shows other functions and parts what it showed before. -/

namespace Multiparty.Typing
open Checking Environment

theorem setVariable_sameShape (environment : Environment) (scope : Scope) (name : String) (type : Ty) :
    SameShape environment (setVariable scope name type environment) :=
  environment.updateFunction_sameShape scope _ fun _ => rfl

theorem bindVariable_sameShape (environment : Environment) (scope : Scope) (name : String)
    (client : Nat) : SameShape environment (bindVariable scope name client environment) :=
  environment.updateFunction_sameShape scope _ fun _ => rfl

theorem unbindVariable_sameShape (environment : Environment) (scope : Scope) (name : String) :
    SameShape environment (unbindVariable scope name environment) :=
  environment.updateFunction_sameShape scope _ fun _ => rfl

section
variable {environment : Environment} {part : Part} {setting : Setting} {loops : Known Interface}
  {context : Known Ty} (represents : Represents environment part setting loops context)
include represents

theorem declare_run {binder : Binder} (admitted : setting.Admits context binder.name.name) :
    declare (.of part setting.current.name) binder environment =
      (.ok (), setVariable (.of part setting.current.name) binder.name.name binder.type environment) := by
  obtain ⟨⟨owner, houses⟩, function, found, holds⟩ := represents
  have groups := houses.groups binder.name.name
  rw [admitted.noGroup] at groups
  have noGroup := eq_none_of_rel groups
  have noTunnel := (houses.tunnels binder.name.name).trans admitted.noTunnel
  have unknown : function.symbols.contains binder.name.name = false := by
    rw [Names.contains, holds.symbols, admitted.unknown]
    rfl
  rw [declare]
  simp only [Scope.part_of]
  rw [bind_ok (part_run houses.found)]
  simp only [noTunnel, noGroup, Option.isSome_none, Bool.false_eq_true, if_false]
  rw [bind_ok (function_run found)]
  simp only [unknown, Bool.false_eq_true, if_false]
  rfl

theorem declare_break {binder : Binder} {violated : Violation} {place : Position}
    (broken : AdmitsBreak setting context binder.name violated place) :
    declare (.of part setting.current.name) binder environment =
      (.error (.violation violated place), environment) := by
  obtain ⟨⟨owner, houses⟩, function, found, holds⟩ := represents
  have groups := houses.groups binder.name.name
  have tunnels := houses.tunnels binder.name.name
  rw [declare]
  simp only [Scope.part_of]
  rw [bind_ok (part_run houses.found)]
  cases broken with
  | tunnel shadowed =>
    simp only [tunnels, shadowed, if_true]
    rfl
  | group shadowed =>
    obtain ⟨client, known⟩ := Option.isSome_iff_exists.mp shadowed
    rw [known] at groups
    have noTunnel : setting.tunnel? binder.name.name = none := by
      cases holdings : setting.holdings <;>
        simp_all [Setting.group?, Setting.tunnel?]
    generalize owner.group? binder.name.name = seen at groups
    cases groups
    simp only [tunnels, noTunnel, Option.isSome_none, Option.isSome_some, Bool.false_eq_true, if_false,
      if_true]
    rfl
  | declared noTunnel noGroup known =>
    rw [noGroup] at groups
    simp only [tunnels, noTunnel, eq_none_of_rel groups, Option.isSome_none, Bool.false_eq_true,
      if_false]
    rw [bind_ok (function_run found)]
    simp only [Names.contains, holds.symbols, known, if_true]
    rfl

theorem checkAssignment_run {assignment : Assignment} {typed : Typed.Expr}
    (assigns : Assigns setting loops context assignment typed) :
    checkAssignment (.of part setting.current.name) assignment environment =
      (.ok typed, environment) := by
  obtain ⟨function, found, holds⟩ := represents.holds
  rw [checkAssignment]
  rw [bind_ok (function_run found), holds.symbols, assigns.target]
  simp only
  rw [bind_ok (checkExpr_run represents assigns.value), if_pos rfl]
  rfl

theorem checkAssignment_break {assignment : Assignment} {violated : Violation} {place : Position}
    (broken : AssignsBreak setting loops context assignment violated place) :
    checkAssignment (.of part setting.current.name) assignment environment =
      (.error (.violation violated place), environment) := by
  obtain ⟨function, found, holds⟩ := represents.holds
  rw [checkAssignment]
  rw [bind_ok (function_run found), holds.symbols]
  cases broken with
  | undefined unknown =>
    rw [unknown]
    rfl
  | value known broken =>
    rw [known]
    exact bind_error (checkExpr_break represents broken) _
  | mismatch known derives different =>
    rw [known]
    simp only
    rw [bind_ok (checkExpr_run represents derives), if_neg different]
    rfl

theorem checkCondition_run {construct : String} {condition : Expr} {typed : Typed.Expr}
    (guards : Guards setting loops context condition typed) :
    checkCondition (.of part setting.current.name) construct condition environment =
      (.ok typed, environment) := by
  rw [checkCondition, bind_ok (checkExpr_run represents guards.derives), if_pos guards.truth]
  rfl

theorem checkCondition_break {construct : String} {condition : Expr} {violated : Violation}
    {place : Position} (broken : GuardsBreak setting loops context construct condition violated place) :
    checkCondition (.of part setting.current.name) construct condition environment =
      (.error (.violation violated place), environment) := by
  rw [checkCondition]
  cases broken with
  | condition broken => exact bind_error (checkExpr_break represents broken) _
  | notTruth derives unfit =>
    rw [bind_ok (checkExpr_run represents derives), unfit]
    rfl

theorem groupClient_run {group : Identifier} {client : Interface}
    (known : setting.group? group.name = some client) :
    ∃ index, Offers environment index client ∧
      groupClient (.of part setting.current.name) group environment = (.ok index, environment) := by
  obtain ⟨owner, houses⟩ := represents.houses
  have groups := houses.groups group.name
  rw [groupClient, Scope.part_of, bind_ok (part_run houses.found)]
  rw [known] at groups
  generalize owner.group? group.name = seen at groups ⊢
  cases groups with
  | some offers => exact ⟨_, offers, rfl⟩

theorem groupClient_break {group : Identifier} (unknown : setting.group? group.name = none) :
    groupClient (.of part setting.current.name) group environment =
      (.error (.violation (.undefinedGroup group.name) group.span.start), environment) := by
  obtain ⟨owner, houses⟩ := represents.houses
  have groups := houses.groups group.name
  rw [unknown] at groups
  rw [groupClient, Scope.part_of, bind_ok (part_run houses.found), eq_none_of_rel groups]
  rfl

end

section
variable {options : Options} {part : Part} {setting : Setting}

/-- The loop variable is declared and bound before the body is checked, and both are undone after it. -/
theorem withLoopBinding_run {environment : Environment} {loops : Known Interface}
    {context after : Known Ty} {α : Type} {binder : Binder} {index : Nat} {client : Interface}
    {check : Checking α} {value : α}
    (represents : Represents environment part setting loops context)
    (looped : binder.type = .client) (offers : Offers environment index client)
    (admitted : setting.Admits context binder.name.name)
    (ran : ∀ inner, Represents inner part setting (loops.add binder.name.name client)
        (context.add binder.name.name .client) →
      ∃ later, check inner = (.ok value, later) ∧ SameShape inner later ∧
        Represents later part setting (loops.add binder.name.name client) after) :
    ∃ later, withLoopBinding (.of part setting.current.name) binder index check environment =
        (.ok value, later) ∧
      SameShape environment later ∧
      Represents later part setting loops (after.drop binder.name.name) := by
  have declared := represents.setVariable binder.name.name binder.type
  have shape := setVariable_sameShape environment (.of part setting.current.name) binder.name.name
    binder.type
  have bound := declared.bindVariable (offers.ofShape shape)
    (by rw [Known.add_self]; rfl : (context.add binder.name.name binder.type binder.name.name).isSome)
  rw [looped] at bound
  obtain ⟨later, checked, kept, reached⟩ := ran _ bound
  have fresh : loops binder.name.name = none := by
    obtain ⟨-, function, found, holds⟩ := represents
    have unbound := mt (holds.bound binder.name.name) (by simp [admitted.unknown])
    simpa using unbound
  refine ⟨_, ?_, ?_, reached.unbindVariable fresh⟩
  · rw [withLoopBinding, bind_ok (declare_run represents admitted), looped]
    exact congrArg (fun ran : Except Diagnostic α × Environment =>
      (ran.1, unbindVariable (.of part setting.current.name) binder.name.name ran.2)) checked
  · exact ((((looped ▸ shape).trans (bindVariable_sameShape _ _ _ _)).trans kept).trans
      (unbindVariable_sameShape _ _ _))

theorem withLoopBinding_break {environment : Environment} {loops : Known Interface}
    {context : Known Ty} {α : Type} {binder : Binder} {index : Nat} {client : Interface}
    {check : Checking α} {diagnostic : Diagnostic}
    (represents : Represents environment part setting loops context)
    (looped : binder.type = .client) (offers : Offers environment index client)
    (admitted : setting.Admits context binder.name.name)
    (ran : ∀ inner, Represents inner part setting (loops.add binder.name.name client)
        (context.add binder.name.name .client) →
      ∃ later, check inner = (.error diagnostic, later)) :
    ∃ later, withLoopBinding (.of part setting.current.name) binder index check environment =
      (.error diagnostic, later) := by
  have declared := represents.setVariable binder.name.name binder.type
  have shape := setVariable_sameShape environment (.of part setting.current.name) binder.name.name
    binder.type
  have bound := declared.bindVariable (offers.ofShape shape)
    (by rw [Known.add_self]; rfl : (context.add binder.name.name binder.type binder.name.name).isSome)
  rw [looped] at bound
  obtain ⟨later, checked⟩ := ran _ bound
  refine ⟨unbindVariable (.of part setting.current.name) binder.name.name later, ?_⟩
  rw [withLoopBinding, bind_ok (declare_run represents admitted), looped]
  exact congrArg (fun ran : Except Diagnostic α × Environment =>
    (ran.1, unbindVariable (.of part setting.current.name) binder.name.name ran.2)) checked

mutual

theorem checkStmt_run {environment : Environment} {loops : Known Interface}
    {context after : Known Ty} {stmt : Stmt} {typed : Typed.Stmt}
    (represents : Represents environment part setting loops context)
    (derives : StmtDerives options setting loops context stmt typed after) :
    ∃ later, checkStmt options (.of part setting.current.name) stmt environment = (.ok typed, later) ∧
      SameShape environment later ∧ Represents later part setting loops after := by
  match stmt with
  | .declaration binder initial span =>
    have declared := represents.setVariable binder.name.name binder.type
    have shape := setVariable_sameShape environment (.of part setting.current.name) binder.name.name
      binder.type
    cases derives with
    | declaration admitted =>
      refine ⟨_, ?_, shape, declared⟩
      rw [checkStmt, bind_ok (declare_run represents admitted)]
      rfl
    | initialised admitted assigns =>
      refine ⟨_, ?_, shape, declared⟩
      rw [checkStmt, bind_ok (declare_run represents admitted), checkInitial]
      apply bind_ok
      rw [bind_ok (checkAssignment_run declared assigns)]
      rfl
  | .assign assignment span =>
    cases derives with
    | assign assigns =>
      refine ⟨environment, ?_, .refl _, represents⟩
      rw [checkStmt, bind_ok (checkAssignment_run represents assigns)]
      rfl
  | .expression value span =>
    cases derives with
    | expression derives =>
      refine ⟨environment, ?_, .refl _, represents⟩
      rw [checkStmt, bind_ok (checkExpr_run represents derives)]
      rfl
  | .display value span =>
    cases derives with
    | display derives lenient =>
      refine ⟨environment, ?_, .refl _, represents⟩
      rw [checkStmt, bind_ok (checkExpr_run represents derives),
        if_neg fun strict => strict.2 (lenient strict.1)]
      rfl
  | .ifThen condition body span =>
    cases derives with
    | ifThen guards derives =>
      obtain ⟨later, ran, shape, reached⟩ := checkStmt_run represents derives
      refine ⟨later, ?_, shape, reached⟩
      rw [checkStmt, bind_ok (checkCondition_run represents guards), bind_ok ran]
      rfl
  | .ifElse condition body otherwise span =>
    cases derives with
    | ifElse guards first second =>
      obtain ⟨middle, ranFirst, shapeFirst, between⟩ := checkStmt_run represents first
      obtain ⟨later, ranSecond, shapeSecond, reached⟩ := checkStmt_run between second
      refine ⟨later, ?_, shapeFirst.trans shapeSecond, reached⟩
      rw [checkStmt, bind_ok (checkCondition_run represents guards), bind_ok ranFirst,
        bind_ok ranSecond]
      rfl
  | .whileLoop condition body span =>
    cases derives with
    | whileLoop guards derives =>
      obtain ⟨later, ran, shape, reached⟩ := checkStmt_run represents derives
      refine ⟨later, ?_, shape, reached⟩
      rw [checkStmt, bind_ok (checkCondition_run represents guards), bind_ok ran]
      rfl
  | .forEach binder group body span =>
    cases derives with
    | forEach server looped known admitted derives =>
      obtain ⟨index, offers, grouped⟩ := groupClient_run represents known
      obtain ⟨later, ran, shape, reached⟩ := withLoopBinding_run represents looped offers admitted
        fun inner within => checkStmt_run within derives
      obtain ⟨owner, registered, name, -⟩ := (offers.ofShape shape).registered
      refine ⟨later, ?_, shape, reached⟩
      rw [checkStmt, bind_ok (requireServer_run represents server _ _), if_pos looped,
        bind_ok grouped, bind_ok ran, bind_ok (part_run registered), name]
      rfl
  | .returns value span =>
    obtain ⟨function, found, holds⟩ := represents.holds
    refine ⟨environment, ?_, ?_⟩
    · rw [checkStmt, bind_ok (function_run found), holds.returnType]
      cases derives with
      | returnsNothing same =>
        rw [same]
        rfl
      | returns derives same =>
        simp only [checkReturned]
        rw [bind_ok (bind_ok (checkExpr_run represents derives) _)]
        simp only [returnedType, same, if_true]
        rfl
    · cases derives <;> exact ⟨.refl _, represents⟩
  | .block body span =>
    cases derives with
    | block derive =>
      obtain ⟨later, ran, shape, reached⟩ := checkStmts_run represents derive
      refine ⟨later, ?_, shape, reached⟩
      rw [checkStmt, bind_ok ran]
      rfl
termination_by structural stmt

theorem checkStmts_run {environment : Environment} {loops : Known Interface}
    {context after : Known Ty} {stmts : List Stmt} {typed : List Typed.Stmt}
    (represents : Represents environment part setting loops context)
    (derive : StmtsDerive options setting loops context stmts typed after) :
    ∃ later, checkStmts options (.of part setting.current.name) stmts environment = (.ok typed, later) ∧
      SameShape environment later ∧ Represents later part setting loops after := by
  match stmts with
  | [] =>
    cases derive
    exact ⟨environment, rfl, .refl _, represents⟩
  | first :: rest =>
    cases derive with
    | cons derives derive =>
      obtain ⟨middle, ranFirst, shapeFirst, between⟩ := checkStmt_run represents derives
      obtain ⟨later, ranRest, shapeRest, reached⟩ := checkStmts_run between derive
      refine ⟨later, ?_, shapeFirst.trans shapeRest, reached⟩
      rw [checkStmts, bind_ok ranFirst, bind_ok ranRest]
      rfl
termination_by structural stmts

end

mutual

theorem checkStmt_break {environment : Environment} {loops : Known Interface} {context : Known Ty}
    {stmt : Stmt} {violated : Violation} {place : Position}
    (represents : Represents environment part setting loops context)
    (broken : StmtBreaks options setting loops context stmt violated place) :
    ∃ later, checkStmt options (.of part setting.current.name) stmt environment =
      (.error (.violation violated place), later) := by
  match stmt with
  | .declaration binder initial span =>
    cases broken with
    | declares broken =>
      refine ⟨environment, ?_⟩
      rw [checkStmt]
      exact bind_error (declare_break represents broken) _
    | initial admitted broken =>
      have declared := represents.setVariable binder.name.name binder.type
      rw [checkStmt, bind_ok (declare_run represents admitted), checkInitial]
      exact ⟨_, bind_error (bind_error (checkAssignment_break declared broken) _) _⟩
  | .assign assignment span =>
    cases broken with
    | assign broken =>
      refine ⟨environment, ?_⟩
      rw [checkStmt]
      exact bind_error (checkAssignment_break represents broken) _
  | .expression value span =>
    cases broken with
    | expression broken =>
      refine ⟨environment, ?_⟩
      rw [checkStmt]
      exact bind_error (checkExpr_break represents broken) _
  | .display value span =>
    refine ⟨environment, ?_⟩
    rw [checkStmt]
    cases broken with
    | displayed broken => exact bind_error (checkExpr_break represents broken) _
    | display derives strict other =>
      rw [bind_ok (checkExpr_run represents derives), if_pos ⟨strict, other⟩]
      rfl
  | .ifThen condition body span =>
    rw [checkStmt]
    cases broken with
    | ifGuard broken => exact ⟨environment, bind_error (checkCondition_break represents broken) _⟩
    | ifBody guards broken =>
      obtain ⟨later, ran⟩ := checkStmt_break represents broken
      rw [bind_ok (checkCondition_run represents guards)]
      exact ⟨later, bind_error ran _⟩
  | .ifElse condition body otherwise span =>
    rw [checkStmt]
    cases broken with
    | ifElseGuard broken => exact ⟨environment, bind_error (checkCondition_break represents broken) _⟩
    | ifElseBody guards broken =>
      obtain ⟨later, ran⟩ := checkStmt_break represents broken
      rw [bind_ok (checkCondition_run represents guards)]
      exact ⟨later, bind_error ran _⟩
    | otherwise guards first broken =>
      obtain ⟨middle, ranFirst, -, between⟩ := checkStmt_run represents first
      obtain ⟨later, ran⟩ := checkStmt_break between broken
      rw [bind_ok (checkCondition_run represents guards), bind_ok ranFirst]
      exact ⟨later, bind_error ran _⟩
  | .whileLoop condition body span =>
    rw [checkStmt]
    cases broken with
    | whileGuard broken => exact ⟨environment, bind_error (checkCondition_break represents broken) _⟩
    | whileBody guards broken =>
      obtain ⟨later, ran⟩ := checkStmt_break represents broken
      rw [bind_ok (checkCondition_run represents guards)]
      exact ⟨later, bind_error ran _⟩
  | .forEach binder group body span =>
    rw [checkStmt]
    cases broken with
    | outsideServer client =>
      exact ⟨environment, bind_error (requireServer_break represents client _ _) _⟩
    | loopVariable server other =>
      rw [bind_ok (requireServer_run represents server _ _), if_neg other]
      exact ⟨environment, rfl⟩
    | group server looped unknown =>
      rw [bind_ok (requireServer_run represents server _ _), if_pos looped]
      exact ⟨environment, bind_error (groupClient_break represents unknown) _⟩
    | loopDeclares server looped known broken =>
      obtain ⟨index, offers, grouped⟩ := groupClient_run represents known
      rw [bind_ok (requireServer_run represents server _ _), if_pos looped, bind_ok grouped]
      exact ⟨environment, bind_error (bind_error (declare_break represents broken) _) _⟩
    | loopBody server looped known admitted broken =>
      obtain ⟨index, offers, grouped⟩ := groupClient_run represents known
      obtain ⟨later, ran⟩ := withLoopBinding_break represents looped offers admitted
        fun inner within => checkStmt_break within broken
      rw [bind_ok (requireServer_run represents server _ _), if_pos looped, bind_ok grouped]
      exact ⟨later, bind_error ran _⟩
  | .returns value span =>
    obtain ⟨function, found, holds⟩ := represents.holds
    refine ⟨environment, ?_⟩
    rw [checkStmt, bind_ok (function_run found), holds.returnType]
    cases broken with
    | returnsNothing different =>
      have nothing : checkReturned (.of part setting.current.name) none environment =
          (.ok none, environment) := rfl
      rw [bind_ok nothing, returnedType, if_neg (Ne.symm different)]
      rfl
    | returned broken => exact bind_error (bind_error (checkExpr_break represents broken) _) _
    | returns derives different =>
      simp only [checkReturned]
      rw [bind_ok (bind_ok (checkExpr_run represents derives) _), returnedType, if_neg different]
      rfl
  | .block body span =>
    cases broken with
    | block broken =>
      obtain ⟨later, ran⟩ := checkStmts_break represents broken
      rw [checkStmt]
      exact ⟨later, bind_error ran _⟩
termination_by structural stmt

theorem checkStmts_break {environment : Environment} {loops : Known Interface} {context : Known Ty}
    {stmts : List Stmt} {violated : Violation} {place : Position}
    (represents : Represents environment part setting loops context)
    (broken : StmtsBreak options setting loops context stmts violated place) :
    ∃ later, checkStmts options (.of part setting.current.name) stmts environment =
      (.error (.violation violated place), later) := by
  match stmts with
  | [] => cases broken
  | first :: rest =>
    rw [checkStmts]
    cases broken with
    | here broken =>
      obtain ⟨later, ran⟩ := checkStmt_break represents broken
      exact ⟨later, bind_error ran _⟩
    | later derives broken =>
      obtain ⟨middle, ranFirst, -, between⟩ := checkStmt_run represents derives
      obtain ⟨later, ran⟩ := checkStmts_break between broken
      rw [bind_ok ranFirst]
      exact ⟨later, bind_error ran _⟩
termination_by structural stmts

end

end
end Multiparty.Typing
