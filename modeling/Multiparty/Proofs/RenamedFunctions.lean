import Multiparty.Proofs.ChangedFunctions
import Multiparty.Proofs.Renaming

/-! A function is typed the same under other names for its variables. The rules look variables up among what is known
of variables and nowhere else, and so it is enough that different variables keep different names and that none is taken
for a tunnel or a group. -/

namespace Multiparty.Typing

/-- What is known of each of the names is known of its new name. -/
def Carries {α : Type} (rename : String → String) (used : List String) (known other : Known α) : Prop :=
  ∀ name ∈ used, other (rename name) = known name

/-- Different names stay different, and the part takes no new name for a tunnel or a group. -/
structure Setting.Tolerates (setting : Setting) (rename : String → String) (used : List String) : Prop where
  distinct : ∀ name ∈ used, ∀ other ∈ used, rename name = rename other → name = other
  tunnel? : ∀ name ∈ used, setting.tunnel? (rename name) = setting.tunnel? name
  group? : ∀ name ∈ used, setting.group? (rename name) = setting.group? name

section
variable {rename : String → String} {used : List String}

section
variable {α : Type} {known other : Known α} {name : String}

theorem Carries.nothing : Carries rename used (.nothing : Known α) .nothing :=
  fun _ _ => rfl

variable (distinct : ∀ name ∈ used, ∀ other ∈ used, rename name = rename other → name = other)
  (carries : Carries rename used known other) (among : name ∈ used)
include distinct carries among

theorem Carries.add (value : α) : Carries rename used (known.add name value) (other.add (rename name) value) := by
  intro asked amongAsked
  by_cases same : name = asked
  · rw [same, Known.add_self, Known.add_self]
  · have apart : rename name ≠ rename asked := fun equal => same (distinct name among asked amongAsked equal)
    rw [Known.add_of_ne _ _ same, Known.add_of_ne _ _ apart]
    exact carries asked amongAsked

theorem Carries.drop : Carries rename used (known.drop name) (other.drop (rename name)) := by
  intro asked amongAsked
  by_cases same : name = asked
  · rw [same, Known.drop, Known.drop, if_pos rfl, if_pos rfl]
  · have apart : rename name ≠ rename asked := fun equal => same (distinct name among asked amongAsked equal)
    rw [Known.drop, Known.drop, if_neg same, if_neg apart]
    exact carries asked amongAsked

end

theorem Opens.renamed {context other opened : Known Ty} {names : List Identifier}
    (distinct : ∀ name ∈ used, ∀ other ∈ used, rename name = rename other → name = other)
    (carries : Carries rename used context other) (within : names.map Identifier.name ⊆ used)
    (opens : Opens context names opened) :
    ∃ after, Opens other (names.map (Identifier.renamed rename)) after ∧ Carries rename used opened after := by
  induction opens generalizing other with
  | nil => exact ⟨other, .nil, carries⟩
  | @cons context opened first rest type found hidden _ ih =>
    rw [List.map_cons, List.cons_subset] at within
    obtain ⟨after, others, kept⟩ := ih (carries.add distinct within.1 type.publicOf) within.2
    exact ⟨after, .cons ((carries _ within.1).trans found) hidden others, kept⟩

namespace Setting.Tolerates
variable {setting : Setting} (tolerates : setting.Tolerates rename used) {context other : Known Ty}
  (carries : Carries rename used context other) {name : String} (among : name ∈ used)
include tolerates carries among

theorem type?_eq : setting.type? other (rename name) = setting.type? context name := by
  rw [Setting.type?, Setting.type?, tolerates.group? name among, tolerates.tunnel? name among, carries name among]

theorem admits (admits : setting.Admits context name) : setting.Admits other (rename name) where
  noTunnel := (tolerates.tunnel? name among).trans admits.noTunnel
  noGroup := (tolerates.group? name among).trans admits.noGroup
  unknown := (carries name among).trans admits.unknown

end Setting.Tolerates

variable {setting : Setting}

mutual

theorem ExprDerives.renamed (tolerates : setting.Tolerates rename used) {loops otherLoops : Known Interface}
    (looped : Carries rename used loops otherLoops) {context other : Known Ty}
    (carries : Carries rename used context other) (expr : Expr) (within : expr.mentioned ⊆ used)
    {typed : Typed.Expr} (derives : ExprDerives setting loops context expr typed) :
    ExprDerives setting otherLoops other (expr.renamed rename) (typed.renamed rename) := by
  cases expr with
  | int | bool | string | readInt =>
    cases derives
    constructor
  | symbol name span =>
    cases derives with
    | symbol found => exact .symbol ((tolerates.type?_eq carries (within List.mem_cons_self)).trans found)
  | binary operator left right span =>
    rw [Expr.mentioned, List.append_subset] at within
    cases derives with
    | binary first second operates =>
      refine .binary (ExprDerives.renamed tolerates looped carries left within.1 first)
        (ExprDerives.renamed tolerates looped carries right within.2 second) ?_
      rwa [Typed.Expr.type_renamed, Typed.Expr.type_renamed]
  | not operand span =>
    cases derives with
    | not first truth =>
      refine .not (ExprDerives.renamed tolerates looped carries operand within first) ?_
      rwa [Typed.Expr.type_renamed]
  | call called arguments callSpan span =>
    cases derives with
    | call found derive =>
      exact .call found (ArgumentsDerive.renamed tolerates looped carries arguments within derive)
  | invoke target called arguments callSpan span =>
    rw [Expr.mentioned, List.cons_subset] at within
    cases derives with
    | invoke server bound found derive =>
      exact .invoke server ((looped _ within.1).trans bound) found
        (ArgumentsDerive.renamed tolerates looped carries arguments within.2 derive)
  | put tunnel value callSpan span =>
    cases derives with
    | put client carried first =>
      refine .put client ?_ (ExprDerives.renamed tolerates looped carries value within first)
      rwa [Typed.Expr.type_renamed]
  | read tunnel reading callSpan span =>
    cases derives with
    | read client carried => exact .read client carried
  | remotePut => cases derives
  | remoteRead target tunnel reading callSpan span =>
    cases derives with
    | remoteRead server bound carried =>
      exact .remoteRead server ((looped _ (within List.mem_cons_self)).trans bound) carried
  | reveal body names span =>
    rw [Expr.mentioned, List.append_subset] at within
    cases derives with
    | @reveal _ _ _ _ _ typed server opens first =>
      obtain ⟨opened, opens, kept⟩ := opens.renamed tolerates.distinct carries within.1
      have derives : ExprDerives setting otherLoops other
          (.reveal (body.renamed rename) (names.map (Identifier.renamed rename)) span) _ :=
        .reveal server opens (ExprDerives.renamed tolerates looped kept body within.2 first)
      have listed : (names.map (Identifier.renamed rename)).map Identifier.name =
          (names.map Identifier.name).map rename := by
        rw [List.map_map, List.map_map]
        rfl
      rwa [listed, Typed.Expr.type_renamed] at derives
termination_by structural expr

theorem ArgumentsDerive.renamed (tolerates : setting.Tolerates rename used) {loops otherLoops : Known Interface}
    (looped : Carries rename used loops otherLoops) {context other : Known Ty}
    (carries : Carries rename used context other) (arguments : List Expr) (within : allMentioned arguments ⊆ used)
    {parameters : List Ty} {typed : List Typed.Expr}
    (derive : ArgumentsDerive setting loops context parameters arguments typed) :
    ArgumentsDerive setting otherLoops other parameters (allRenamed rename arguments)
      (Typed.allRenamed rename typed) := by
  cases arguments with
  | nil =>
    cases derive
    exact .nil
  | cons argument arguments =>
    rw [allMentioned, List.append_subset] at within
    cases derive with
    | cons first accepts rest =>
      refine .cons (ExprDerives.renamed tolerates looped carries argument within.1 first) ?_
        (ArgumentsDerive.renamed tolerates looped carries arguments within.2 rest)
      rwa [Typed.Expr.type_renamed]
termination_by structural arguments

end

section
variable (tolerates : setting.Tolerates rename used) {loops otherLoops : Known Interface}
  (looped : Carries rename used loops otherLoops) {context other : Known Ty}
  (carries : Carries rename used context other)
include tolerates looped carries

theorem Assigns.renamed {assignment : Assignment} (within : assignment.mentioned ⊆ used) {typed : Typed.Expr}
    (assigns : Assigns setting loops context assignment typed) :
    Assigns setting otherLoops other (assignment.renamed rename) (typed.renamed rename) := by
  rw [Assignment.mentioned, List.cons_subset] at within
  constructor
  · rw [Typed.Expr.type_renamed]
    exact (carries _ within.1).trans assigns.target
  · exact ExprDerives.renamed tolerates looped carries _ within.2 assigns.value

theorem Guards.renamed {condition : Expr} (within : condition.mentioned ⊆ used) {typed : Typed.Expr}
    (guards : Guards setting loops context condition typed) :
    Guards setting otherLoops other (condition.renamed rename) (typed.renamed rename) := by
  refine ⟨ExprDerives.renamed tolerates looped carries _ within guards.derives, ?_⟩
  rw [Typed.Expr.type_renamed]
  exact guards.truth

end

variable {options : Options}

mutual

/-- A statement leaves the same known of its variables under their new names. -/
theorem StmtDerives.renamed (tolerates : setting.Tolerates rename used) {loops otherLoops : Known Interface}
    (looped : Carries rename used loops otherLoops) {context other after : Known Ty}
    (carries : Carries rename used context other) (stmt : Stmt) (within : stmt.mentioned ⊆ used)
    {typed : Typed.Stmt} (derives : StmtDerives options setting loops context stmt typed after) :
    ∃ otherAfter, StmtDerives options setting otherLoops other (stmt.renamed rename) (typed.renamed rename)
      otherAfter ∧ Carries rename used after otherAfter := by
  cases stmt with
  | declaration binder initial span =>
    rw [Stmt.mentioned, List.cons_subset] at within
    have added := carries.add tolerates.distinct within.1 binder.type
    cases derives with
    | declaration admitted => exact ⟨_, .declaration (tolerates.admits carries within.1 admitted), added⟩
    | initialised admitted assigns =>
      exact ⟨_, .initialised (tolerates.admits carries within.1 admitted)
        (assigns.renamed tolerates looped added within.2), added⟩
  | assign assignment span =>
    cases derives with
    | assign assigns => exact ⟨_, .assign (assigns.renamed tolerates looped carries within), carries⟩
  | expression value span =>
    cases derives with
    | expression derives =>
      exact ⟨_, .expression (ExprDerives.renamed tolerates looped carries value within derives), carries⟩
  | display value span =>
    cases derives with
    | display derives shown =>
      refine ⟨_, .display (ExprDerives.renamed tolerates looped carries value within derives) ?_, carries⟩
      rwa [Typed.Expr.type_renamed]
  | ifThen condition body span =>
    rw [Stmt.mentioned, List.append_subset] at within
    cases derives with
    | ifThen guards derives =>
      obtain ⟨last, body, kept⟩ := StmtDerives.renamed tolerates looped carries body within.2 derives
      exact ⟨last, .ifThen (guards.renamed tolerates looped carries within.1) body, kept⟩
  | ifElse condition body otherwise span =>
    rw [Stmt.mentioned, List.append_subset, List.append_subset] at within
    obtain ⟨withinCondition, withinBody, withinOtherwise⟩ := within
    cases derives with
    | ifElse guards first second =>
      obtain ⟨middle, body, kept⟩ := StmtDerives.renamed tolerates looped carries body withinBody first
      obtain ⟨last, otherwise, kept⟩ := StmtDerives.renamed tolerates looped kept otherwise withinOtherwise second
      exact ⟨last, .ifElse (guards.renamed tolerates looped carries withinCondition) body otherwise, kept⟩
  | whileLoop condition body span =>
    rw [Stmt.mentioned, List.append_subset] at within
    cases derives with
    | whileLoop guards derives =>
      obtain ⟨last, body, kept⟩ := StmtDerives.renamed tolerates looped carries body within.2 derives
      exact ⟨last, .whileLoop (guards.renamed tolerates looped carries within.1) body, kept⟩
  | forEach binder group body span =>
    rw [Stmt.mentioned, List.cons_subset] at within
    cases derives with
    | @forEach _ _ _ _ _ _ _ client _ server kind found admitted derives =>
      obtain ⟨last, body, kept⟩ := StmtDerives.renamed tolerates
        (looped.add tolerates.distinct within.1 client) (carries.add tolerates.distinct within.1 .client) body
        within.2 derives
      exact ⟨_, .forEach server kind found (tolerates.admits carries within.1 admitted) body,
        kept.drop tolerates.distinct within.1⟩
  | returns value span =>
    cases derives with
    | returnsNothing void => exact ⟨_, .returnsNothing void, carries⟩
    | @returns _ _ value _ typed derives same =>
      have derives := ExprDerives.renamed tolerates looped carries value within derives
      rw [← Typed.Expr.type_renamed rename] at same
      refine ⟨_, ?_, carries⟩
      rw [Typed.Stmt.renamed, ← Typed.Expr.type_renamed rename]
      exact .returns derives same
  | block body span =>
    cases derives with
    | block derive =>
      obtain ⟨last, body, kept⟩ := StmtsDerive.renamed tolerates looped carries body within derive
      exact ⟨last, .block body, kept⟩
termination_by structural stmt

theorem StmtsDerive.renamed (tolerates : setting.Tolerates rename used) {loops otherLoops : Known Interface}
    (looped : Carries rename used loops otherLoops) {context other after : Known Ty}
    (carries : Carries rename used context other) (stmts : List Stmt) (within : allStmtsMentioned stmts ⊆ used)
    {typed : List Typed.Stmt} (derive : StmtsDerive options setting loops context stmts typed after) :
    ∃ otherAfter, StmtsDerive options setting otherLoops other (allStmtsRenamed rename stmts)
      (Typed.allStmtsRenamed rename typed) otherAfter ∧ Carries rename used after otherAfter := by
  cases stmts with
  | nil =>
    cases derive
    exact ⟨other, .nil, carries⟩
  | cons first rest =>
    rw [allStmtsMentioned, List.append_subset] at within
    cases derive with
    | cons derives others =>
      obtain ⟨middle, first, kept⟩ := StmtDerives.renamed tolerates looped carries first within.1 derives
      obtain ⟨last, rest, kept⟩ := StmtsDerive.renamed tolerates looped kept rest within.2 others
      exact ⟨last, .cons first rest, kept⟩
termination_by structural stmts

end

theorem Carries.seeded (distinct : ∀ name ∈ used, ∀ other ∈ used, rename name = rename other → name = other)
    {parameters : List Binder} (within : ∀ binder ∈ parameters, binder.name.name ∈ used) :
    Carries rename used (Typing.seeded parameters) (Typing.seeded (parameters.map (Binder.renamed rename))) := by
  suffices ∀ known other, Carries rename used known other →
      Carries rename used (parameters.foldl (fun known binder => known.add binder.name.name binder.type) known)
        ((parameters.map (Binder.renamed rename)).foldl (fun known binder =>
          known.add binder.name.name binder.type) other) from this _ _ nothing
  induction parameters with
  | nil => exact fun _ _ carries => carries
  | cons first rest ih =>
    intro known other carries
    rw [List.forall_mem_cons] at within
    exact ih within.2 _ _ (carries.add distinct within.1 first.type)

theorem parameters_renamed (tolerates : setting.Tolerates rename used) {before parameters : List Binder}
    {typed : List Typed.Parameter} (within : ∀ binder ∈ before ++ parameters, binder.name.name ∈ used)
    (turn : InTurn (ParameterDerives setting) before parameters typed) :
    InTurn (ParameterDerives setting) (before.map (Binder.renamed rename)) (parameters.map (Binder.renamed rename))
      (typed.map (Typed.Parameter.renamed rename)) := by
  induction turn with
  | nil => exact .nil
  | @cons before rest binder typed _ derives _ ih =>
    have others := ih (by rwa [← List.append_cons])
    rw [List.map_append, List.map_singleton] at others
    rw [List.forall_mem_append, List.forall_mem_cons] at within
    obtain ⟨earlier, declared, -⟩ := within
    refine .cons ⟨?_, ?_⟩ others
    · exact tolerates.admits (.seeded tolerates.distinct earlier) declared derives.admitted
    · rw [derives.result]
      rfl

end

section
variable {options : Options} {owner : String} {holdings : Holdings} {before : List Function}
  {function : Function} {rename : String → String}

theorem signature_renamed (rename : String → String) (function : Function) :
    (function.renamed rename).signature = function.signature := by
  rw [Function.signature, Function.renamed, List.map_map]
  rfl

theorem setting_renamed (rename : String → String) (owner : String) (holdings : Holdings) (before : List Function)
    (function : Function) :
    Setting.of owner holdings before (function.renamed rename) = .of owner holdings before function := by
  simp only [Setting.of, List.map_append, List.map_singleton, signature_renamed]

theorem FunctionDerives.renamed {typed : Typed.Function}
    (tolerates : (Setting.of owner holdings before function).Tolerates rename function.mentioned)
    (derives : FunctionDerives options owner holdings before function typed) :
    FunctionDerives options owner holdings before (function.renamed rename) (typed.renamed rename) := by
  obtain ⟨fresh, allowed, parameters, ⟨after, body⟩, result⟩ := derives
  have declared : ∀ binder ∈ function.parameters, binder.name.name ∈ function.mentioned :=
    fun binder among => List.mem_append_left _ (List.mem_map_of_mem among)
  obtain ⟨_, body, -⟩ := StmtsDerive.renamed tolerates .nothing (.seeded tolerates.distinct declared) _
    (List.subset_append_right _ _) body
  have parameters := parameters_renamed tolerates declared parameters
  rw [← setting_renamed rename] at allowed parameters body
  exact ⟨fresh, allowed, parameters, ⟨_, body⟩, result⟩

theorem Setting.unnamed {name : String} (unheld : name ∉ holdings.names) (functions : List Signature)
    (current : Signature) :
    (Setting.mk owner holdings functions current).tunnel? name = none ∧
      (Setting.mk owner holdings functions current).group? name = none := by
  cases holdings with
  | tunnels types =>
    refine ⟨List.lookup_eq_none_iff.mpr fun entry among => ?_, rfl⟩
    exact bne_iff_ne.mpr fun same => unheld (List.mem_map.mpr ⟨entry, among, same.symm⟩)
  | groups clients =>
    refine ⟨rfl, List.lookup_eq_none_iff.mpr fun entry among => ?_⟩
    exact bne_iff_ne.mpr fun same => unheld (List.mem_map.mpr ⟨entry, among, same.symm⟩)

/-- Neither the old nor the new names are those of tunnels or groups, and no other name changes. -/
theorem tolerates_of_renames {members : List String} (renames : function.Renames members rename)
    (held : holdings.names ⊆ members) :
    (Setting.of owner holdings before function).Tolerates rename function.mentioned := by
  have unnamed : ∀ name ∉ members, (Setting.of owner holdings before function).tunnel? name = none ∧
      (Setting.of owner holdings before function).group? name = none :=
    fun name outside => Setting.unnamed (fun named => outside (held named)) _ _
  refine ⟨renames.distinct, fun name _ => ?_, fun name _ => ?_⟩
  all_goals by_cases within : name ∈ function.locals
  · rw [(unnamed name (renames.before name within)).1, (unnamed _ (renames.after name within)).1]
  · rw [renames.elsewhere name within]
  · rw [(unnamed name (renames.before name within)).2, (unnamed _ (renames.after name within)).2]
  · rw [renames.elsewhere name within]

theorem ProgramDerives.renamed {program : Program} {typed : Typed.Program} {part : Part} {index : Nat}
    (found : (program.functionsOf part)[index]? = some function)
    (renames : function.Renames (program.membersOf part) rename) (derives : ProgramDerives options program typed) :
    ProgramDerives options (program.modifyFunction part index (·.renamed rename))
      (typed.modifyFunction part index (·.renamed rename)) := by
  apply derives.modifyFunction (signature_renamed rename) found
  intro owner holdings before typed held derives
  exact derives.renamed (tolerates_of_renames renames held)

end

/-- Other names for the variables of a function change nothing but the names in its typed tree. -/
theorem checkProgram_renamed (options : Options) {program : Program} {part : Part} {index : Nat} {function : Function}
    {rename : String → String} (found : (program.functionsOf part)[index]? = some function)
    (renames : function.Renames (program.membersOf part) rename) :
    (checkProgram options (program.modifyFunction part index (·.renamed rename))).toOption =
      (checkProgram options program).toOption.map (·.modifyFunction part index (·.renamed rename)) := by
  cases checked : checkProgram options program with
  | ok typed =>
    rw [checkProgram_run ((derives_of_checkProgram checked).renamed found renames)]
    rfl
  | error diagnostic =>
    cases rechecked : checkProgram options (program.modifyFunction part index (·.renamed rename)) with
    | error _ => rfl
    | ok typed =>
      -- The old names are names for the variables of the renamed function, and so they would be accepted too.
      have foundRenamed : ((program.modifyFunction part index (·.renamed rename)).functionsOf part)[index]? =
          some (function.renamed rename) := by
        rw [program.functionsOf_modifyFunction, List.getElem?_modify_eq, found]
        rfl
      have back := renames.back
      rw [← program.membersOf_modifyFunction part index (·.renamed rename)] at back
      have derives := (derives_of_checkProgram rechecked).renamed foundRenamed back
      rw [program.modifyFunction_back part index found renames.renamed_undoing] at derives
      rw [checkProgram_run derives] at checked
      cases checked

/-- The loop variable is called like the function, and one variable like a tunnel of the clients. -/
def electing : Program :=
  let identifier (name : String) : Identifier := ⟨name, .nowhere⟩
  let binder (type : Ty) (name : String) : Binder := ⟨type, identifier name, .nowhere⟩
  let total : Expr := .symbol "total" .nowhere
  let take : Expr := .remoteRead (identifier "count") (identifier "ballot") .take .nowhere .nowhere
  let ask : Expr := .invoke (identifier "count") (identifier "vote") [total] .nowhere .nowhere
  let again : Expr := .call (identifier "count") [total] .nowhere .nowhere
  let visit : Stmt := .block [.assign ⟨identifier "ballot", take, .nowhere⟩ .nowhere, .expression ask .nowhere,
    .expression again .nowhere, .display (.reveal total [identifier "total"] .nowhere) .nowhere] .nowhere
  let body : List Stmt := [.declaration (binder .sbool "ballot") none .nowhere,
    .forEach (binder .client "count") (identifier "voters") visit .nowhere]
  { clients := [⟨identifier "Voter", [⟨binder .sbool "ballot", .nowhere⟩],
      [⟨.void, identifier "vote", [binder .sint "total"], [], .nowhere⟩], .nowhere⟩]
    server := ⟨identifier "Chair", [⟨identifier "Voter", identifier "voters", .nowhere⟩],
      [⟨.void, identifier "count", [binder .sint "total"], body, .nowhere⟩], .nowhere⟩
    span := .nowhere }

/-- Two variables exchange their names, and the loop variable gets a new one. -/
def swapping (name : String) : String :=
  if name = "total" then "ballot" else if name = "ballot" then "total" else if name = "count" then "voter" else name

theorem swapping_renames {function : Function} (found : (electing.functionsOf .server)[0]? = some function) :
    function.Renames (electing.membersOf .server) swapping := by
  cases found
  constructor
  · intro name outside
    have apart : ¬(name = "total" ∨ name = "ballot" ∨ name = "count") := fun among => outside (by
      rcases among with rfl | rfl | rfl <;> decide)
    simp only [not_or] at apart
    rw [swapping, if_neg apart.1, if_neg apart.2.1, if_neg apart.2.2]
  all_goals decide

theorem checkProgram_renamed_electing :
    (∃ function, (electing.functionsOf .server)[0]? = some function ∧
      function.locals = ["total", "ballot", "count"] ∧
      (function.renamed swapping).mentioned =
        ["ballot", "total", "voter", "total", "voter", "voter", "ballot", "ballot", "ballot", "ballot"] ∧
      function.Renames (electing.membersOf .server) swapping) ∧
    (checkProgram ⟨false⟩ electing).isOk ∧
    (checkProgram ⟨false⟩ (electing.modifyFunction .server 0 (·.renamed swapping))).toOption =
      (checkProgram ⟨false⟩ electing).toOption.map (·.modifyFunction .server 0 (·.renamed swapping)) := by
  refine ⟨⟨_, rfl, rfl, rfl, swapping_renames rfl⟩, rfl, ?_⟩
  exact checkProgram_renamed ⟨false⟩ rfl (swapping_renames rfl)

end Multiparty.Typing
