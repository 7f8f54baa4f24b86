import Multiparty.Proofs.Restoration

/-! What the check of a statement adds to its function. Loop variables and opened types do not outlast the part of
the check that they are for, so that only declared variables remain, and on success all of them. -/

namespace Multiparty

namespace Names
variable {α : Type}

def append (names : Names α) (added : List (String × α)) : Names α :=
  List.append names added

theorem append_nil (names : Names α) : names.append [] = names :=
  List.append_nil names

theorem append_append (names : Names α) (first second : List (String × α)) :
    (names.append first).append second = names.append (first ++ second) :=
  List.append_assoc names first second

theorem find?_append (names : Names α) (added : List (String × α)) (name : String) :
    (names.append added).find? name = (names.find? name).or (added.lookup name) := by
  rw [find?_eq_lookup, find?_eq_lookup]
  exact List.lookup_append

theorem set_eq_append {names : Names α} {name : String} (value : α) (fresh : names.find? name = none) :
    names.set name value = names.append [(name, value)] :=
  set_of_find?_eq_none value fresh

theorem erase_eq_self {names : Names α} {name : String} (absent : names.find? name = none) :
    names.erase name = names := by
  induction names with
  | nil => rfl
  | cons entry rest ih => grind [erase, find?]

/-- What was added to a map in which the name was new is all that is erased with the name. -/
theorem erase_append {names : Names α} {name : String} (absent : names.find? name = none) (value : α)
    {added : List (String × α)} (apart : added.lookup name = none) :
    (names.append ((name, value) :: added)).erase name = names.append added := by
  induction names with
  | nil =>
    have absentToo : find? name added = none := (find?_eq_lookup added name).trans apart
    exact (if_pos rfl).trans (erase_eq_self absentToo)
  | cons entry rest ih =>
    rw [find?] at absent
    split at absent
    next => cases absent
    next different => exact (if_neg different).trans (congrArg (entry :: ·) (ih absent))

end Names

mutual

/-- The variables that a statement declares, in their order. Loop variables are not among them. -/
def Stmt.declarations : Stmt → List (String × Ty)
  | .declaration binder _ _ => [(binder.name.name, binder.type)]
  | .assign _ _ | .expression _ _ | .display _ _ | .returns _ _ => []
  | .ifThen _ body _ | .whileLoop _ body _ | .forEach _ _ body _ => body.declarations
  | .ifElse _ body otherwise _ => body.declarations ++ otherwise.declarations
  | .block body _ => allDeclarations body

def allDeclarations : List Stmt → List (String × Ty)
  | [] => []
  | first :: rest => first.declarations ++ allDeclarations rest

end

namespace FunctionScope

/-- Each name that stands for a client is a variable. -/
def LoopsDeclared (function : FunctionScope) : Prop :=
  ∀ name, (function.bindings.find? name).isSome → (function.symbols.find? name).isSome

def declaring (added : List (String × Ty)) (function : FunctionScope) : FunctionScope :=
  { function with symbols := function.symbols.append added }

/-- The function within a loop. -/
def looping (name : String) (type : Ty) (client : Nat) (function : FunctionScope) : FunctionScope :=
  { function with
    symbols := function.symbols.set name type
    bindings := function.bindings.set name client }

/-- The function after a loop. -/
def unlooping (name : String) (function : FunctionScope) : FunctionScope :=
  { function with
    symbols := function.symbols.erase name
    bindings := function.bindings.erase name }

variable {function : FunctionScope} {name : String}

theorem LoopsDeclared.looping (looped : function.LoopsDeclared) (name : String) (type : Ty)
    (client : Nat) : (function.looping name type client).LoopsDeclared := by
  intro other bound
  simp only [FunctionScope.looping, Names.find?_set] at bound ⊢
  split at bound
  next same =>
    rw [if_pos same]
    rfl
  next different =>
    rw [if_neg different]
    exact looped other bound

theorem LoopsDeclared.unbound (looped : function.LoopsDeclared)
    (unknown : function.symbols.find? name = none) : function.bindings.find? name = none := by
  apply Option.not_isSome_iff_eq_none.mp
  intro bound
  have known := looped name bound
  simp [unknown] at known

/-- After a loop its variable is gone, and what was declared in the loop stays. -/
theorem unlooping_looping (looped : function.LoopsDeclared)
    (unknown : function.symbols.find? name = none) (type : Ty) (client : Nat)
    {added : List (String × Ty)} (apart : added.lookup name = none) :
    ((function.looping name type client).declaring added).unlooping name = function.declaring added := by
  have unbound := looped.unbound unknown
  simp only [looping, declaring, unlooping]
  rw [Names.set_eq_append type unknown, Names.set_eq_append client unbound, Names.append_append,
    List.singleton_append, Names.erase_append unknown type apart, Names.erase_append unbound client rfl,
    Names.append_nil]

end FunctionScope

namespace Typing
open Checking Environment

/-- The later environment has further variables in the function, all of them new to it, and is the earlier one in
all other respects. -/
structure Grows (scope : Scope) (added : List (String × Ty)) (before after : Environment) : Prop where
  after_eq : after = before.updateFunction scope (.declaring added)
  fresh : ∀ entry ∈ added, ∃ function, before.function? scope = some function ∧
    function.symbols.find? entry.1 = none
  distinct : (added.map Prod.fst).Nodup

namespace Grows
variable {scope : Scope} {added : List (String × Ty)} {before after : Environment}

theorem refl (scope : Scope) (environment : Environment) : Grows scope [] environment environment := by
  refine ⟨?_, nofun, .nil⟩
  have same : FunctionScope.declaring [] = id := by
    funext function
    rw [FunctionScope.declaring, Names.append_nil]
    rfl
  rw [same, updateFunction_id]

theorem function?_eq (grows : Grows scope added before after) :
    after.function? scope = (before.function? scope).map (.declaring added) := by
  rw [grows.after_eq, function?_updateFunction]

/-- A known variable keeps its type, and no other one is known but those added. -/
theorem find?_eq (grows : Grows scope added before after) {function later : FunctionScope}
    (found : before.function? scope = some function) (foundLater : after.function? scope = some later)
    (name : String) :
    later.symbols.find? name = (function.symbols.find? name).or (added.lookup name) := by
  rw [grows.function?_eq, found] at foundLater
  cases foundLater
  exact Names.find?_append function.symbols added name

theorem loopsDeclared (grows : Grows scope added before after)
    (looped : ∀ function, before.function? scope = some function → function.LoopsDeclared) :
    ∀ function, after.function? scope = some function → function.LoopsDeclared := by
  intro later foundLater
  obtain ⟨function, found, same⟩ := Option.map_eq_some_iff.mp (grows.function?_eq ▸ foundLater)
  intro name bound
  rw [grows.find?_eq found foundLater]
  rw [← same] at bound
  obtain ⟨type, known⟩ := Option.isSome_iff_exists.mp (looped function found name bound)
  rw [known]
  rfl

theorem trans {more : List (String × Ty)} {middle : Environment} (first : Grows scope added before middle)
    (second : Grows scope more middle after) : Grows scope (added ++ more) before after := by
  have new : ∀ entry ∈ more, ∃ function, before.function? scope = some function ∧
      function.symbols.find? entry.1 = none ∧ added.lookup entry.1 = none := by
    intro entry among
    obtain ⟨later, foundLater, absent⟩ := second.fresh entry among
    obtain ⟨function, found, -⟩ := Option.map_eq_some_iff.mp (first.function?_eq ▸ foundLater)
    rw [first.find?_eq found foundLater, Option.or_eq_none_iff] at absent
    exact ⟨function, found, absent⟩
  refine ⟨?_, ?_, ?_⟩
  · rw [second.after_eq, first.after_eq, updateFunction_updateFunction]
    congr 1
    funext function
    simp only [Function.comp_apply, FunctionScope.declaring, Names.append_append]
  · rw [List.forall_mem_append]
    refine ⟨first.fresh, fun entry among => ?_⟩
    obtain ⟨function, found, absent, -⟩ := new entry among
    exact ⟨function, found, absent⟩
  · rw [List.map_append, List.nodup_append]
    refine ⟨first.distinct, second.distinct, ?_⟩
    rintro name within other amongMore rfl
    obtain ⟨entry, among, rfl⟩ := List.mem_map.mp amongMore
    obtain ⟨-, -, -, absent⟩ := new entry among
    rw [List.lookup_eq_none_iff] at absent
    obtain ⟨earlier, present, same⟩ := List.mem_map.mp within
    simpa [same] using absent earlier present

end Grows

/-- However it ends, the check adds declared variables to the function, from the first one on, and nothing else. A
check that succeeds adds them all. -/
def Adds {α : Type} (scope : Scope) (declarations : List (String × Ty)) (check : Checking α) : Prop :=
  ∀ environment,
    (∀ function, environment.function? scope = some function → function.LoopsDeclared) →
    ∃ added, Grows scope added environment (check environment).2 ∧ added <+: declarations ∧
      ((check environment).1.isOk → added = declarations)

section
variable {α β : Type} {scope : Scope} {check : Checking α} {next : α → Checking β}
  {declarations : List (String × Ty)}

theorem adds_of_restores (restores : Restores check) : Adds scope [] check := by
  intro environment _
  refine ⟨[], ?_, List.prefix_rfl, fun _ => rfl⟩
  rw [restores environment]
  exact .refl scope environment

theorem adds_violation (violated : Violation) (place : Position) :
    Adds scope declarations (violation violated place : Checking α) := by
  intro environment _
  exact ⟨[], .refl scope environment, List.nil_prefix, nofun⟩

theorem Adds.ite {condition : Prop} [Decidable condition] {other : Checking α}
    (adds : Adds scope declarations check) (otherAdds : Adds scope declarations other) :
    Adds scope declarations (if condition then check else other) := by
  split
  · exact adds
  · exact otherAdds

theorem Adds.bind {more : List (String × Ty)} (adds : Adds scope declarations check)
    (others : ∀ value, Adds scope more (next value)) :
    Adds scope (declarations ++ more) (check >>= next) := by
  intro environment looped
  obtain ⟨added, grows, among, all⟩ := adds environment looped
  rcases ran : check environment with ⟨result, middle⟩
  rw [ran] at grows all
  cases result with
  | error diagnostic =>
    rw [bind_error ran]
    exact ⟨added, grows, among.trans (List.prefix_append _ _), nofun⟩
  | ok value =>
    rw [bind_ok ran]
    obtain rfl := all rfl
    obtain ⟨further, growsFurther, amongMore, allMore⟩ := others value middle (grows.loopsDeclared looped)
    refine ⟨added ++ further, grows.trans growsFurther, ?_, fun succeeds => ?_⟩
    · exact (List.prefix_append_right_inj added).mpr amongMore
    · rw [allMore succeeds]

theorem Adds.bind_restores (adds : Adds scope declarations check)
    (restores : ∀ value, Restores (next value)) : Adds scope declarations (check >>= next) := by
  have whole := adds.bind fun value => adds_of_restores (restores value)
  rwa [List.append_nil] at whole

theorem adds_bind_of_restores (restores : Restores check)
    (adds : ∀ value, Adds scope declarations (next value)) : Adds scope declarations (check >>= next) :=
  (adds_of_restores restores).bind adds

end

section
variable {scope : Scope}

theorem declare_cases (scope : Scope) (binder : Binder) (environment : Environment) :
    (∃ diagnostic, declare scope binder environment = (.error diagnostic, environment)) ∨
      ∃ function, environment.function? scope = some function ∧
        function.symbols.find? binder.name.name = none ∧
        declare scope binder environment =
          (.ok (), setVariable scope binder.name.name binder.type environment) := by
  rw [declare]
  cases registered : environment.part? scope.part with
  | none => exact .inl ⟨_, bind_error (part_unregistered registered) _⟩
  | some owner =>
    rw [bind_ok (part_run registered)]
    split
    next => exact .inl ⟨_, rfl⟩
    next =>
      split
      next => exact .inl ⟨_, rfl⟩
      next =>
        cases found : environment.function? scope with
        | none => exact .inl ⟨_, bind_error (function_unregistered scope found) _⟩
        | some function =>
          rw [bind_ok (function_run found)]
          split
          next => exact .inl ⟨_, rfl⟩
          next unknown =>
            rw [Names.contains, Option.not_isSome_iff_eq_none] at unknown
            exact .inr ⟨function, rfl, unknown, rfl⟩

theorem setVariable_grows {environment : Environment} {function : FunctionScope} {name : String}
    (found : environment.function? scope = some function) (unknown : function.symbols.find? name = none)
    (type : Ty) : Grows scope [(name, type)] environment (setVariable scope name type environment) := by
  refine ⟨?_, ?_, by simp⟩
  · apply updateFunction_congr found
    rw [FunctionScope.declaring, Names.set_eq_append type unknown]
  · rintro entry among
    rw [List.mem_singleton] at among
    exact ⟨function, found, among ▸ unknown⟩

theorem declare_adds (binder : Binder) :
    Adds scope [(binder.name.name, binder.type)] (declare scope binder) := by
  intro environment _
  rcases declare_cases scope binder environment with
    ⟨diagnostic, ran⟩ | ⟨function, found, unknown, ran⟩
  · rw [ran]
    exact ⟨[], .refl scope environment, List.nil_prefix, nofun⟩
  · rw [ran]
    exact ⟨_, setVariable_grows found unknown binder.type, List.prefix_rfl, fun _ => rfl⟩

theorem change_run {update : Environment → Environment} {environment : Environment} :
    change update environment = (.ok (), update environment) := rfl

theorem bindVariable_setVariable (environment : Environment) (name : String) (type : Ty) (client : Nat) :
    bindVariable scope name client (setVariable scope name type environment) =
      environment.updateFunction scope (.looping name type client) :=
  updateFunction_updateFunction environment scope _ _

theorem withLoopBinding_adds {α : Type} {check : Checking α} {declarations : List (String × Ty)}
    (adds : Adds scope declarations check) (binder : Binder) (client : Nat) :
    Adds scope declarations (withLoopBinding scope binder client check) := by
  intro environment looped
  rw [withLoopBinding]
  rcases declare_cases scope binder environment with
    ⟨diagnostic, ran⟩ | ⟨function, found, unknown, ran⟩
  · rw [bind_error ran]
    exact ⟨[], .refl scope environment, List.nil_prefix, nofun⟩
  rw [bind_ok ran, bind_ok change_run, bindVariable_setVariable]
  generalize inside : environment.updateFunction scope
    (.looping binder.name.name binder.type client) = inner
  have foundInner : inner.function? scope =
      some (function.looping binder.name.name binder.type client) := by
    rw [← inside, function?_updateFunction, found, Option.map_some]
  obtain ⟨added, grows, among, all⟩ := adds inner fun current foundCurrent => by
    rw [foundInner] at foundCurrent
    cases foundCurrent
    exact (looped function found).looping _ _ _
  have new : ∀ entry ∈ added, binder.name.name ≠ entry.1 ∧ function.symbols.find? entry.1 = none := by
    intro entry within
    obtain ⟨current, foundCurrent, absent⟩ := grows.fresh entry within
    rw [foundInner] at foundCurrent
    cases foundCurrent
    rw [FunctionScope.looping, Names.find?_set] at absent
    split at absent
    next => cases absent
    next different => exact ⟨different, absent⟩
  refine ⟨added, ⟨?_, fun entry within => ⟨function, found, (new entry within).2⟩, grows.distinct⟩, among, all⟩
  have apart : added.lookup binder.name.name = none :=
    List.lookup_eq_none_iff.mpr fun entry within => by simpa using (new entry within).1
  show (check inner).2.updateFunction scope (.unlooping binder.name.name) = _
  rw [grows.after_eq, ← inside, updateFunction_updateFunction, updateFunction_updateFunction]
  exact updateFunction_congr found
    (FunctionScope.unlooping_looping (looped function found) unknown _ _ apart)

end

theorem checkAssignment_restores (scope : Scope) (assignment : Assignment) :
    Restores (checkAssignment scope assignment) := by
  refine (function_restores scope).bind fun current => ?_
  split
  · exact restores_violation _ _
  · refine (checkExpr_restores scope assignment.value).bind fun value => ?_
    exact (restores_pure _).ite (restores_violation _ _)

theorem checkInitial_restores (scope : Scope) (initial : Option Assignment) :
    Restores (checkInitial scope initial) := by
  cases initial with
  | none => exact restores_pure _
  | some assignment => exact (checkAssignment_restores scope assignment).bind fun _ => restores_pure _

theorem checkCondition_restores (scope : Scope) (construct : String) (condition : Expr) :
    Restores (checkCondition scope construct condition) :=
  (checkExpr_restores scope condition).bind fun _ => (restores_pure _).ite (restores_violation _ _)

theorem checkReturned_restores (scope : Scope) (value : Option Expr) :
    Restores (checkReturned scope value) := by
  cases value with
  | none => exact restores_pure _
  | some value => exact (checkExpr_restores scope value).bind fun _ => restores_pure _

theorem groupClient_restores (scope : Scope) (group : Identifier) :
    Restores (groupClient scope group) := by
  refine (part_restores scope.part).bind fun owner => ?_
  split
  · exact restores_pure _
  · exact restores_violation _ _

mutual

theorem checkStmt_adds (options : Options) (scope : Scope) (stmt : Stmt) :
    Adds scope stmt.declarations (checkStmt options scope stmt) := by
  cases stmt with
  | declaration binder initial span =>
    refine (declare_adds binder).bind_restores fun _ => ?_
    exact (checkInitial_restores scope initial).bind fun _ => restores_pure _
  | assign assignment span =>
    exact adds_of_restores ((checkAssignment_restores scope assignment).bind fun _ => restores_pure _)
  | expression value span =>
    exact adds_of_restores ((checkExpr_restores scope value).bind fun _ => restores_pure _)
  | display value span =>
    refine adds_of_restores ((checkExpr_restores scope value).bind fun typed => ?_)
    exact (restores_violation _ _).ite (restores_pure _)
  | ifThen condition body span =>
    rw [checkStmt]
    refine adds_bind_of_restores (checkCondition_restores scope _ condition) fun typed => ?_
    exact (checkStmt_adds options scope body).bind_restores fun _ => restores_pure _
  | ifElse condition body otherwise span =>
    rw [checkStmt]
    refine adds_bind_of_restores (checkCondition_restores scope _ condition) fun typed => ?_
    refine (checkStmt_adds options scope body).bind fun typedBody => ?_
    exact (checkStmt_adds options scope otherwise).bind_restores fun _ => restores_pure _
  | whileLoop condition body span =>
    rw [checkStmt]
    refine adds_bind_of_restores (checkCondition_restores scope _ condition) fun typed => ?_
    exact (checkStmt_adds options scope body).bind_restores fun _ => restores_pure _
  | forEach binder group body span =>
    rw [checkStmt]
    refine adds_bind_of_restores (requireServer_restores scope _ _) fun _ => Adds.ite ?_ ?_
    · refine adds_bind_of_restores (groupClient_restores scope group) fun client => ?_
      refine (withLoopBinding_adds (checkStmt_adds options scope body) binder client).bind_restores
        fun typed => ?_
      exact (part_restores _).bind fun _ => restores_pure _
    · exact adds_violation _ _
  | returns value span =>
    refine adds_of_restores ((function_restores scope).bind fun current => ?_)
    refine (checkReturned_restores scope value).bind fun typed => ?_
    exact (restores_pure _).ite (restores_violation _ _)
  | block body span =>
    rw [checkStmt]
    exact (checkStmts_adds options scope body).bind_restores fun _ => restores_pure _
termination_by structural stmt

theorem checkStmts_adds (options : Options) (scope : Scope) (stmts : List Stmt) :
    Adds scope (allDeclarations stmts) (checkStmts options scope stmts) := by
  cases stmts with
  | nil => exact adds_of_restores (restores_pure _)
  | cons first rest =>
    rw [checkStmts]
    refine (checkStmt_adds options scope first).bind fun typed => ?_
    exact (checkStmts_adds options scope rest).bind_restores fun _ => restores_pure _
termination_by structural stmts

end

/-- Checks undo what they change for a time. An expression leaves the environment as it was, and a statement adds to
the variables of its function, and changes nothing else: a check that fails adds the first few of the variables that
the statement declares, and a check that succeeds adds them all. -/
theorem checks_undone (options : Options) (scope : Scope) (environment : Environment) :
    (∀ expr, (checkExpr scope expr environment).2 = environment) ∧
      ((∀ function, environment.function? scope = some function → function.LoopsDeclared) →
        ∀ stmt, ∃ added,
          Grows scope added environment (checkStmt options scope stmt environment).2 ∧
            added <+: stmt.declarations ∧
            ((checkStmt options scope stmt environment).1.isOk → added = stmt.declarations)) :=
  ⟨fun expr => checkExpr_restores scope expr environment,
    fun looped stmt => checkStmt_adds options scope stmt environment looped⟩

/-- A server whose function `run` knows a secret. -/
def dealing : Environment :=
  let run : Function := ⟨.void, ⟨"run", .nowhere⟩, [], [], .nowhere⟩
  ⟨[⟨"Party", .empty, .tunnels .empty⟩],
    some ⟨"Dealer", [("run", ⟨run, [("secret", .sint)], .empty⟩)], .groups [("parties", 0)]⟩⟩

/-- A loop with declarations, which fails in the middle of an `open`. -/
def visit : Stmt :=
  let identifier (name : String) : Identifier := ⟨name, .nowhere⟩
  let declare (type : Ty) (name : String) : Stmt :=
    .declaration ⟨type, identifier name, .nowhere⟩ none .nowhere
  let sum : Expr := .binary .add (.symbol "secret" .nowhere) (.symbol "missing" .nowhere) .nowhere
  .block [declare .int "total",
    .forEach ⟨.client, identifier "member", .nowhere⟩ (identifier "parties")
      (.block [declare .bool "seen", .display (.reveal sum [identifier "secret"] .nowhere) .nowhere,
        declare .int "late"] .nowhere) .nowhere] .nowhere

/-- The loop variable is gone and the secret is closed, and what was declared before the failure stays. -/
theorem checks_undone_visit :
    let scope := Scope.of .server "run"
    (∀ function, dealing.function? scope = some function → function.LoopsDeclared) ∧
      (checkStmt ⟨false⟩ scope visit dealing).1.isOk = false ∧
      (checkStmt ⟨false⟩ scope visit dealing).2 =
        dealing.updateFunction scope (.declaring [("total", .int), ("seen", .bool)]) ∧
      ∃ added, Grows scope added dealing (checkStmt ⟨false⟩ scope visit dealing).2 ∧
        added <+: visit.declarations ∧
        ((checkStmt ⟨false⟩ scope visit dealing).1.isOk → added = visit.declarations) := by
  have looped : ∀ function, dealing.function? (.of .server "run") = some function →
      function.LoopsDeclared := by
    intro function found name bound
    cases found
    cases bound
  exact ⟨looped, rfl, rfl, (checks_undone ⟨false⟩ _ dealing).2 looped visit⟩

end Typing
end Multiparty
