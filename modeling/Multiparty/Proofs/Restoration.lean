import Multiparty.Proofs.ExpressionChecks

/-! Checks that leave nothing behind. However it ends, the check of an expression leaves the environment as it was,
since each variable that it opens it closes again. -/

namespace Multiparty

namespace Checking
variable {α β : Type}

/-- However it ends, the check leaves the environment as it was. -/
def Restores (check : Checking α) : Prop :=
  ∀ environment, (check environment).2 = environment

theorem restores_pure (value : α) : Restores (pure value) :=
  fun _ => rfl

theorem restores_violation (violated : Violation) (place : Position) :
    Restores (violation violated place : Checking α) :=
  fun _ => rfl

theorem restores_observe (view : Environment → α) : Restores (observe view) :=
  fun _ => rfl

theorem Restores.ite {condition : Prop} [Decidable condition] {check other : Checking α}
    (restores : Restores check) (otherRestores : Restores other) :
    Restores (if condition then check else other) := by
  split
  · exact restores
  · exact otherRestores

theorem Restores.bind {check : Checking α} {next : α → Checking β} (restores : Restores check)
    (others : ∀ value, Restores (next value)) : Restores (check >>= next) := by
  intro environment
  have kept := restores environment
  simp only [Bind.bind]
  split
  next value after ran =>
    rw [ran] at kept
    exact (others value after).trans kept
  next ran =>
    rw [ran] at kept
    exact kept

end Checking

namespace Typing
open Checking Environment

section
variable (scope : Scope)

theorem part_restores (target : Part) : Restores (part target) := by
  refine (restores_observe _).bind fun found => ?_
  cases found with
  | none => exact fun _ => rfl
  | some owner => exact restores_pure owner

theorem function_restores : Restores (function scope) := by
  refine (restores_observe _).bind fun found => ?_
  cases found with
  | none => exact fun _ => rfl
  | some found => exact restores_pure found

theorem resolve_restores (name : String) (place : Position) : Restores (resolve scope name place) := by
  refine (part_restores _).bind fun owner => ?_
  split
  · exact restores_pure _
  · exact restores_pure _
  · refine (function_restores _).bind fun current => ?_
    split
    · exact restores_pure _
    · exact restores_violation _ _

theorem boundClient_restores (target : Identifier) : Restores (boundClient scope target) := by
  refine (function_restores _).bind fun current => ?_
  split
  · exact restores_pure _
  · exact restores_violation _ _

theorem callee_restores (target : Part) (called : Identifier) (received : Nat) (callSpan : Span) :
    Restores (callee target called received callSpan) := by
  refine (part_restores target).bind fun owner => ?_
  split
  · exact restores_violation _ _
  · exact (restores_pure _).ite (restores_violation _ _)

theorem carriedType_restores (owner : Part) (tunnel : Identifier) :
    Restores (carriedType owner tunnel) := by
  refine (part_restores owner).bind fun found => ?_
  split
  · exact restores_pure _
  · exact restores_violation _ _

theorem requireServer_restores (construct : String) (place : Position) :
    Restores (requireServer scope construct place) :=
  (restores_pure ()).ite (restores_violation _ _)

theorem requireClient_restores (construct : String) (place : Position) :
    Restores (requireClient scope construct place) :=
  (restores_violation _ _).ite (restores_pure ())

theorem requireOperand_restores (operator place : String) (operand : Typed.Expr) (expected : Ty) :
    Restores (requireOperand operator place operand expected) :=
  (restores_pure ()).ite (restores_violation _ _)

theorem requireArgument_restores (called : String) (place : Nat) (parameter : Binder)
    (argument : Typed.Expr) : Restores (requireArgument called place parameter argument) :=
  (restores_pure ()).ite (restores_violation _ _)

theorem checkBinary_restores (operator : Operator) (left right : Typed.Expr) :
    Restores (checkBinary operator left right) := by
  refine Restores.ite ((restores_pure _).ite (restores_violation _ _)) ?_
  refine (requireOperand_restores _ _ _ _).bind fun _ => ?_
  exact (requireOperand_restores _ _ _ _).bind fun _ => restores_pure _

theorem part_unregistered {environment : Environment} {target : Part}
    (missing : environment.part? target = none) :
    part target environment = (.error (unregisteredPart target), environment) := by
  rw [Typing.part, bind_ok (observe_run missing)]
  rfl

theorem function_unregistered {environment : Environment}
    (missing : environment.function? scope = none) :
    function scope environment = (.error (unregisteredFunction scope), environment) := by
  rw [Typing.function, bind_ok (observe_run missing)]
  rfl

/-- Only a secret variable is changed, and what it was before is kept. -/
theorem openVariable_cases (opened : Identifier) (environment : Environment) :
    (∃ diagnostic, openVariable scope opened environment = (.error diagnostic, environment)) ∨
      ∃ function secret, environment.function? scope = some function ∧
        function.symbols.find? opened.name = some secret ∧
        openVariable scope opened environment =
          (.ok secret, setVariable scope opened.name secret.publicOf environment) := by
  cases found : environment.function? scope with
  | none =>
    left
    exact ⟨_, bind_error (function_unregistered scope found) _⟩
  | some function =>
    rw [openVariable, bind_ok (function_run found)]
    cases known : function.symbols.find? opened.name with
    | none => exact .inl ⟨_, rfl⟩
    | some type =>
      cases secret : type.isSecret with
      | false => exact .inl ⟨_, by simp only [secret]; rfl⟩
      | true => exact .inr ⟨function, type, rfl, known, by simp only [secret]; rfl⟩

/-- Opened variables are closed again, also when one after them cannot be opened. -/
theorem withOpened_restores {α : Type} {check : Checking α} (restores : Restores check)
    (names : List Identifier) : Restores (withOpened scope names check) := by
  induction names with
  | nil => exact restores
  | cons opened rest ih =>
    intro environment
    rw [withOpened]
    rcases openVariable_cases scope opened environment with
      ⟨diagnostic, ran⟩ | ⟨function, secret, found, known, ran⟩
    · rw [bind_error ran]
    · rw [bind_ok ran]
      have inner := ih (setVariable scope opened.name secret.publicOf environment)
      have closed := setVariable_setVariable secret.publicOf found known
      rw [← inner] at closed
      exact closed

end

mutual

theorem checkExpr_restores (scope : Scope) (expr : Expr) : Restores (checkExpr scope expr) := by
  cases expr with
  | int | bool | string | readInt => exact restores_pure _
  | symbol name span => exact (resolve_restores scope _ _).bind fun _ => restores_pure _
  | binary operator left right span =>
    rw [checkExpr]
    refine (checkExpr_restores scope left).bind fun typedLeft => ?_
    refine (checkExpr_restores scope right).bind fun typedRight => ?_
    exact (checkBinary_restores _ _ _).bind fun _ => restores_pure _
  | not operand span =>
    rw [checkExpr]
    refine (checkExpr_restores scope operand).bind fun typed => ?_
    exact (requireOperand_restores _ _ _ _).bind fun _ => restores_pure _
  | call called arguments callSpan span =>
    rw [checkExpr]
    refine (callee_restores _ _ _ _).bind fun function => ?_
    exact (checkArguments_restores _ _ _ _ arguments).bind fun _ => restores_pure _
  | invoke target called arguments callSpan span =>
    rw [checkExpr]
    refine (requireServer_restores scope _ _).bind fun _ => ?_
    refine (boundClient_restores scope _).bind fun client => ?_
    refine (callee_restores _ _ _ _).bind fun function => ?_
    refine (checkArguments_restores _ _ _ _ arguments).bind fun typed => ?_
    exact (part_restores _).bind fun _ => restores_pure _
  | put tunnel value callSpan span =>
    rw [checkExpr]
    refine (requireClient_restores scope _ _).bind fun _ => ?_
    refine (carriedType_restores _ _).bind fun carried => ?_
    refine (checkExpr_restores scope value).bind fun typed => ?_
    exact (restores_pure _).ite (restores_violation _ _)
  | read tunnel reading callSpan span =>
    refine (requireClient_restores scope _ _).bind fun _ => ?_
    exact (carriedType_restores _ _).bind fun _ => restores_pure _
  | remotePut target tunnel value callSpan span =>
    exact (requireServer_restores scope _ _).bind fun _ => restores_violation _ _
  | remoteRead target tunnel reading callSpan span =>
    refine (requireServer_restores scope _ _).bind fun _ => ?_
    refine (boundClient_restores scope _).bind fun client => ?_
    refine (carriedType_restores _ _).bind fun carried => ?_
    exact (part_restores _).bind fun _ => restores_pure _
  | reveal body names span =>
    rw [checkExpr]
    refine (requireServer_restores scope _ _).bind fun _ => ?_
    exact (withOpened_restores scope (checkExpr_restores scope body) names).bind fun _ =>
      restores_pure _
termination_by structural expr

theorem checkArguments_restores (scope : Scope) (called : String) (place : Nat)
    (parameters : List Binder) (arguments : List Expr) :
    Restores (checkArguments scope called place parameters arguments) := by
  match parameters, arguments with
  | [], [] | [], _ :: _ | _ :: _, [] => exact restores_pure _
  | parameter :: parameters, argument :: arguments =>
    rw [checkArguments]
    refine (checkExpr_restores scope argument).bind fun typed => ?_
    refine (requireArgument_restores _ _ _ _).bind fun _ => ?_
    exact (checkArguments_restores scope _ _ parameters arguments).bind fun _ => restores_pure _
termination_by structural arguments

end

end Typing

end Multiparty
