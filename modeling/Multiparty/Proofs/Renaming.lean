import Multiparty.Tree.Basic
import Multiparty.Tree.Typed
import Multiparty.Typing.Environment

/-! Other names for the variables of a function. Where a name stands for a variable it changes, and where it stands for
a function, a tunnel, a group or a client it stays, even if a variable has the same name. -/

namespace Multiparty

def Identifier.renamed (rename : String → String) (identifier : Identifier) : Identifier :=
  { identifier with name := rename identifier.name }

def Binder.renamed (rename : String → String) (binder : Binder) : Binder :=
  { binder with name := binder.name.renamed rename }

mutual

def Expr.renamed (rename : String → String) : Expr → Expr
  | .int value span => .int value span
  | .bool value span => .bool value span
  | .string value span => .string value span
  | .symbol name span => .symbol (rename name) span
  | .binary operator left right span => .binary operator (left.renamed rename) (right.renamed rename) span
  | .not operand span => .not (operand.renamed rename) span
  | .call function arguments callSpan span => .call function (allRenamed rename arguments) callSpan span
  | .invoke target function arguments callSpan span =>
    .invoke (target.renamed rename) function (allRenamed rename arguments) callSpan span
  | .put tunnel value callSpan span => .put tunnel (value.renamed rename) callSpan span
  | .read tunnel reading callSpan span => .read tunnel reading callSpan span
  | .remotePut target tunnel value callSpan span =>
    .remotePut (target.renamed rename) tunnel (value.renamed rename) callSpan span
  | .remoteRead target tunnel reading callSpan span =>
    .remoteRead (target.renamed rename) tunnel reading callSpan span
  | .reveal body names span => .reveal (body.renamed rename) (names.map (Identifier.renamed rename)) span
  | .readInt span => .readInt span

def allRenamed (rename : String → String) : List Expr → List Expr
  | [] => []
  | first :: rest => first.renamed rename :: allRenamed rename rest

end

def Assignment.renamed (rename : String → String) (assignment : Assignment) : Assignment :=
  ⟨assignment.target.renamed rename, assignment.value.renamed rename, assignment.span⟩

mutual

def Stmt.renamed (rename : String → String) : Stmt → Stmt
  | .declaration binder initial span =>
    .declaration (binder.renamed rename) (initial.map (Assignment.renamed rename)) span
  | .assign assignment span => .assign (assignment.renamed rename) span
  | .expression value span => .expression (value.renamed rename) span
  | .display value span => .display (value.renamed rename) span
  | .ifThen condition body span => .ifThen (condition.renamed rename) (body.renamed rename) span
  | .ifElse condition body otherwise span =>
    .ifElse (condition.renamed rename) (body.renamed rename) (otherwise.renamed rename) span
  | .whileLoop condition body span => .whileLoop (condition.renamed rename) (body.renamed rename) span
  | .forEach binder group body span => .forEach (binder.renamed rename) group (body.renamed rename) span
  | .returns value span => .returns (value.map (Expr.renamed rename)) span
  | .block body span => .block (allStmtsRenamed rename body) span

def allStmtsRenamed (rename : String → String) : List Stmt → List Stmt
  | [] => []
  | first :: rest => first.renamed rename :: allStmtsRenamed rename rest

end

def Function.renamed (rename : String → String) (function : Function) : Function :=
  { function with
    parameters := function.parameters.map (Binder.renamed rename)
    body := allStmtsRenamed rename function.body }

namespace Typed

mutual

def Expr.renamed (rename : String → String) : Expr → Expr
  | .int value mark => .int value mark
  | .bool value mark => .bool value mark
  | .string value mark => .string value mark
  | .symbol name mark => .symbol (rename name) mark
  | .binary operator left right mark => .binary operator (left.renamed rename) (right.renamed rename) mark
  | .not operand mark => .not (operand.renamed rename) mark
  | .call function arguments mark => .call function (allRenamed rename arguments) mark
  | .invoke target client function arguments mark =>
    .invoke (rename target) client function (allRenamed rename arguments) mark
  | .put tunnel value mark => .put tunnel (value.renamed rename) mark
  | .read tunnel reading mark => .read tunnel reading mark
  | .remotePut target client tunnel value mark =>
    .remotePut (rename target) client tunnel (value.renamed rename) mark
  | .remoteRead target client tunnel reading mark => .remoteRead (rename target) client tunnel reading mark
  | .reveal body names mark => .reveal (body.renamed rename) (names.map rename) mark
  | .readInt mark => .readInt mark

def allRenamed (rename : String → String) : List Expr → List Expr
  | [] => []
  | first :: rest => first.renamed rename :: allRenamed rename rest

end

mutual

def Stmt.renamed (rename : String → String) : Stmt → Stmt
  | .declaration name type initial span =>
    .declaration (rename name) type (initial.map (Expr.renamed rename)) span
  | .assign target value span => .assign (rename target) (value.renamed rename) span
  | .expression value span => .expression (value.renamed rename) span
  | .display value span => .display (value.renamed rename) span
  | .ifThen condition body span => .ifThen (condition.renamed rename) (body.renamed rename) span
  | .ifElse condition body otherwise span =>
    .ifElse (condition.renamed rename) (body.renamed rename) (otherwise.renamed rename) span
  | .whileLoop condition body span => .whileLoop (condition.renamed rename) (body.renamed rename) span
  | .forEach name group client body span => .forEach (rename name) group client (body.renamed rename) span
  | .returns value type span => .returns (value.map (Expr.renamed rename)) type span
  | .block body span => .block (allStmtsRenamed rename body) span

def allStmtsRenamed (rename : String → String) : List Stmt → List Stmt
  | [] => []
  | first :: rest => first.renamed rename :: allStmtsRenamed rename rest

end

def Parameter.renamed (rename : String → String) (parameter : Parameter) : Parameter :=
  { parameter with name := rename parameter.name }

def Function.renamed (rename : String → String) (function : Function) : Function :=
  { function with
    parameters := function.parameters.map (Parameter.renamed rename)
    body := allStmtsRenamed rename function.body }

/-- The type is that of the value, not of its name. -/
theorem Expr.type_renamed (rename : String → String) (expr : Expr) : (expr.renamed rename).type = expr.type := by
  cases expr <;> rfl

end Typed

/-! The names that stand for variables. -/

mutual

def Expr.mentioned : Expr → List String
  | .int _ _ | .bool _ _ | .string _ _ | .read _ _ _ _ | .readInt _ => []
  | .symbol name _ => [name]
  | .binary _ left right _ => left.mentioned ++ right.mentioned
  | .not operand _ => operand.mentioned
  | .call _ arguments _ _ => allMentioned arguments
  | .invoke target _ arguments _ _ => target.name :: allMentioned arguments
  | .put _ value _ _ => value.mentioned
  | .remotePut target _ value _ _ => target.name :: value.mentioned
  | .remoteRead target _ _ _ _ => [target.name]
  | .reveal body names _ => names.map Identifier.name ++ body.mentioned

def allMentioned : List Expr → List String
  | [] => []
  | first :: rest => first.mentioned ++ allMentioned rest

end

def Assignment.mentioned (assignment : Assignment) : List String :=
  assignment.target.name :: assignment.value.mentioned

mutual

def Stmt.mentioned : Stmt → List String
  | .declaration binder initial _ => binder.name.name :: (initial.map Assignment.mentioned).getD []
  | .assign assignment _ => assignment.mentioned
  | .expression value _ | .display value _ => value.mentioned
  | .ifThen condition body _ | .whileLoop condition body _ => condition.mentioned ++ body.mentioned
  | .ifElse condition body otherwise _ => condition.mentioned ++ (body.mentioned ++ otherwise.mentioned)
  | .forEach binder _ body _ => binder.name.name :: body.mentioned
  | .returns value _ => (value.map Expr.mentioned).getD []
  | .block body _ => allStmtsMentioned body

def allStmtsMentioned : List Stmt → List String
  | [] => []
  | first :: rest => first.mentioned ++ allStmtsMentioned rest

end

mutual

/-- The variables that a statement declares, those of its loops among them. -/
def Stmt.locals : Stmt → List String
  | .declaration binder _ _ => [binder.name.name]
  | .assign _ _ | .expression _ _ | .display _ _ | .returns _ _ => []
  | .ifThen _ body _ | .whileLoop _ body _ => body.locals
  | .ifElse _ body otherwise _ => body.locals ++ otherwise.locals
  | .forEach binder _ body _ => binder.name.name :: body.locals
  | .block body _ => allLocals body

def allLocals : List Stmt → List String
  | [] => []
  | first :: rest => first.locals ++ allLocals rest

end

namespace Function

def parameterNames (function : Function) : List String :=
  function.parameters.map fun binder => binder.name.name

def mentioned (function : Function) : List String :=
  function.parameterNames ++ allStmtsMentioned function.body

def locals (function : Function) : List String :=
  function.parameterNames ++ allLocals function.body

/-- Other names for the variables that the function declares. Neither they nor the new names are `members`, which are
the tunnels or the groups of its part, and no new name is taken by what the function does not declare. -/
structure Renames (function : Function) (members : List String) (rename : String → String) : Prop where
  elsewhere : ∀ name, name ∉ function.locals → rename name = name
  injective : ∀ name ∈ function.locals, ∀ other ∈ function.locals, rename name = rename other → name = other
  fresh : ∀ name ∈ function.locals, rename name ∈ function.mentioned → rename name ∈ function.locals
  before : ∀ name ∈ function.locals, name ∉ members
  after : ∀ name ∈ function.locals, rename name ∉ members

end Function

/-! Where the variables are read from renamed trees. -/

section
variable (rename : String → String)

mutual

theorem Expr.mentioned_renamed (expr : Expr) : (expr.renamed rename).mentioned = expr.mentioned.map rename := by
  cases expr with
  | int | bool | string | symbol | read | remoteRead | readInt => rfl
  | binary operator left right span =>
    rw [Expr.renamed, Expr.mentioned, Expr.mentioned_renamed left, Expr.mentioned_renamed right, Expr.mentioned, List.map_append]
  | not operand span => exact Expr.mentioned_renamed operand
  | call called arguments callSpan span => exact allMentioned_renamed arguments
  | invoke target called arguments callSpan span =>
    rw [Expr.renamed, Expr.mentioned, allMentioned_renamed arguments, Expr.mentioned, List.map_cons]
    rfl
  | put tunnel value callSpan span => exact Expr.mentioned_renamed value
  | remotePut target tunnel value callSpan span =>
    rw [Expr.renamed, Expr.mentioned, Expr.mentioned_renamed value, Expr.mentioned, List.map_cons]
    rfl
  | reveal body names span =>
    rw [Expr.renamed, Expr.mentioned, Expr.mentioned_renamed body, Expr.mentioned, List.map_append, List.map_map, List.map_map]
    rfl
termination_by structural expr

theorem allMentioned_renamed (arguments : List Expr) :
    allMentioned (allRenamed rename arguments) = (allMentioned arguments).map rename := by
  cases arguments with
  | nil => rfl
  | cons first rest =>
    rw [allRenamed, allMentioned, Expr.mentioned_renamed first, allMentioned_renamed rest, allMentioned,
      List.map_append]
termination_by structural arguments

end

theorem Assignment.mentioned_renamed (assignment : Assignment) :
    (assignment.renamed rename).mentioned = assignment.mentioned.map rename := by
  rw [renamed, mentioned, Expr.mentioned_renamed, mentioned, List.map_cons]
  rfl

mutual

theorem Stmt.mentioned_renamed (stmt : Stmt) : (stmt.renamed rename).mentioned = stmt.mentioned.map rename := by
  cases stmt with
  | declaration binder initial span =>
    cases initial with
    | none => rfl
    | some initial => exact congrArg (rename binder.name.name :: ·) (initial.mentioned_renamed rename)
  | assign assignment span => exact assignment.mentioned_renamed rename
  | expression value span | display value span => exact value.mentioned_renamed rename
  | ifThen condition body span | whileLoop condition body span =>
    rw [Stmt.renamed, Stmt.mentioned, Expr.mentioned_renamed, Stmt.mentioned_renamed body, Stmt.mentioned, List.map_append]
  | ifElse condition body otherwise span =>
    rw [Stmt.renamed, Stmt.mentioned, Expr.mentioned_renamed, Stmt.mentioned_renamed body, Stmt.mentioned_renamed otherwise,
      Stmt.mentioned, List.map_append, List.map_append]
  | forEach binder group body span =>
    rw [Stmt.renamed, Stmt.mentioned, Stmt.mentioned_renamed body, Stmt.mentioned, List.map_cons]
    rfl
  | returns value span =>
    cases value with
    | none => rfl
    | some value => exact value.mentioned_renamed rename
  | block body span => exact allStmtsMentioned_renamed body
termination_by structural stmt

theorem allStmtsMentioned_renamed (stmts : List Stmt) :
    allStmtsMentioned (allStmtsRenamed rename stmts) = (allStmtsMentioned stmts).map rename := by
  cases stmts with
  | nil => rfl
  | cons first rest =>
    rw [allStmtsRenamed, allStmtsMentioned, Stmt.mentioned_renamed first, allStmtsMentioned_renamed rest,
      allStmtsMentioned, List.map_append]
termination_by structural stmts

end

mutual

theorem Stmt.locals_renamed (stmt : Stmt) : (stmt.renamed rename).locals = stmt.locals.map rename := by
  cases stmt with
  | declaration | assign | expression | display | returns => rfl
  | ifThen condition body span | whileLoop condition body span => exact Stmt.locals_renamed body
  | ifElse condition body otherwise span =>
    rw [Stmt.renamed, Stmt.locals, Stmt.locals_renamed body, Stmt.locals_renamed otherwise, Stmt.locals, List.map_append]
  | forEach binder group body span =>
    rw [Stmt.renamed, Stmt.locals, Stmt.locals_renamed body, Stmt.locals, List.map_cons]
    rfl
  | block body span => exact allLocals_renamed body
termination_by structural stmt

theorem allLocals_renamed (stmts : List Stmt) :
    allLocals (allStmtsRenamed rename stmts) = (allLocals stmts).map rename := by
  cases stmts with
  | nil => rfl
  | cons first rest =>
    rw [allStmtsRenamed, allLocals, Stmt.locals_renamed first, allLocals_renamed rest, allLocals, List.map_append]
termination_by structural stmts

end

namespace Function
variable (function : Function)

theorem parameterNames_renamed : (function.renamed rename).parameterNames = function.parameterNames.map rename := by
  rw [parameterNames, parameterNames, renamed, List.map_map, List.map_map]
  rfl

theorem mentioned_renamed : (function.renamed rename).mentioned = function.mentioned.map rename := by
  rw [mentioned, parameterNames_renamed, mentioned, List.map_append, ← allStmtsMentioned_renamed]
  rfl

theorem locals_renamed : (function.renamed rename).locals = function.locals.map rename := by
  rw [locals, parameterNames_renamed, locals, List.map_append, ← allLocals_renamed]
  rfl

end Function
end

/-! The way back. -/

section
variable {rename back : String → String}

theorem Identifier.renamed_back {identifier : Identifier} (undoes : back (rename identifier.name) = identifier.name) :
    (identifier.renamed rename).renamed back = identifier := by
  rw [renamed, renamed, undoes]

theorem Binder.renamed_back {binder : Binder} (undoes : back (rename binder.name.name) = binder.name.name) :
    (binder.renamed rename).renamed back = binder := by
  rw [renamed, renamed, Identifier.renamed_back undoes]

mutual

theorem Expr.renamed_back (expr : Expr) (undoes : ∀ name ∈ expr.mentioned, back (rename name) = name) :
    (expr.renamed rename).renamed back = expr := by
  cases expr with
  | int | bool | string | read | readInt => rfl
  | symbol name span => rw [Expr.renamed, Expr.renamed, undoes name List.mem_cons_self]
  | binary operator left right span =>
    rw [Expr.mentioned, List.forall_mem_append] at undoes
    rw [Expr.renamed, Expr.renamed, Expr.renamed_back left undoes.1, Expr.renamed_back right undoes.2]
  | not operand span => rw [Expr.renamed, Expr.renamed, Expr.renamed_back operand undoes]
  | call called arguments callSpan span => rw [Expr.renamed, Expr.renamed, allRenamed_back arguments undoes]
  | invoke target called arguments callSpan span =>
    rw [Expr.mentioned, List.forall_mem_cons] at undoes
    rw [Expr.renamed, Expr.renamed, Identifier.renamed_back undoes.1, allRenamed_back arguments undoes.2]
  | put tunnel value callSpan span => rw [Expr.renamed, Expr.renamed, Expr.renamed_back value undoes]
  | remotePut target tunnel value callSpan span =>
    rw [Expr.mentioned, List.forall_mem_cons] at undoes
    rw [Expr.renamed, Expr.renamed, Identifier.renamed_back undoes.1, Expr.renamed_back value undoes.2]
  | remoteRead target tunnel reading callSpan span =>
    rw [Expr.renamed, Expr.renamed, Identifier.renamed_back (undoes _ List.mem_cons_self)]
  | reveal body names span =>
    rw [Expr.mentioned, List.forall_mem_append, List.forall_mem_map] at undoes
    have listed : names.map (Identifier.renamed back ∘ Identifier.renamed rename) = names.map id :=
      List.map_congr_left fun identifier among => Identifier.renamed_back (undoes.1 identifier among)
    rw [Expr.renamed, Expr.renamed, Expr.renamed_back body undoes.2, List.map_map, listed, List.map_id]
termination_by structural expr

theorem allRenamed_back (arguments : List Expr) (undoes : ∀ name ∈ allMentioned arguments, back (rename name) = name) :
    allRenamed back (allRenamed rename arguments) = arguments := by
  cases arguments with
  | nil => rfl
  | cons first rest =>
    rw [allMentioned, List.forall_mem_append] at undoes
    rw [allRenamed, allRenamed, Expr.renamed_back first undoes.1, allRenamed_back rest undoes.2]
termination_by structural arguments

end

theorem Assignment.renamed_back (assignment : Assignment)
    (undoes : ∀ name ∈ assignment.mentioned, back (rename name) = name) :
    (assignment.renamed rename).renamed back = assignment := by
  rw [mentioned, List.forall_mem_cons] at undoes
  rw [renamed, renamed, Identifier.renamed_back undoes.1, Expr.renamed_back _ undoes.2]

mutual

theorem Stmt.renamed_back (stmt : Stmt) (undoes : ∀ name ∈ stmt.mentioned, back (rename name) = name) :
    (stmt.renamed rename).renamed back = stmt := by
  cases stmt with
  | declaration binder initial span =>
    rw [Stmt.mentioned, List.forall_mem_cons] at undoes
    rw [Stmt.renamed, Stmt.renamed, Binder.renamed_back undoes.1]
    cases initial with
    | none => rfl
    | some initial => rw [Option.map_some, Option.map_some, initial.renamed_back undoes.2]
  | assign assignment span => rw [Stmt.renamed, Stmt.renamed, assignment.renamed_back undoes]
  | expression value span | display value span => rw [Stmt.renamed, Stmt.renamed, value.renamed_back undoes]
  | ifThen condition body span | whileLoop condition body span =>
    rw [Stmt.mentioned, List.forall_mem_append] at undoes
    rw [Stmt.renamed, Stmt.renamed, condition.renamed_back undoes.1, Stmt.renamed_back body undoes.2]
  | ifElse condition body otherwise span =>
    rw [Stmt.mentioned, List.forall_mem_append, List.forall_mem_append] at undoes
    rw [Stmt.renamed, Stmt.renamed, condition.renamed_back undoes.1, Stmt.renamed_back body undoes.2.1,
      Stmt.renamed_back otherwise undoes.2.2]
  | forEach binder group body span =>
    rw [Stmt.mentioned, List.forall_mem_cons] at undoes
    rw [Stmt.renamed, Stmt.renamed, Binder.renamed_back undoes.1, Stmt.renamed_back body undoes.2]
  | returns value span =>
    cases value with
    | none => rfl
    | some value => rw [Stmt.renamed, Stmt.renamed, Option.map_some, Option.map_some, value.renamed_back undoes]
  | block body span => rw [Stmt.renamed, Stmt.renamed, allStmtsRenamed_back body undoes]
termination_by structural stmt

theorem allStmtsRenamed_back (stmts : List Stmt)
    (undoes : ∀ name ∈ allStmtsMentioned stmts, back (rename name) = name) :
    allStmtsRenamed back (allStmtsRenamed rename stmts) = stmts := by
  cases stmts with
  | nil => rfl
  | cons first rest =>
    rw [allStmtsMentioned, List.forall_mem_append] at undoes
    rw [allStmtsRenamed, allStmtsRenamed, Stmt.renamed_back first undoes.1, allStmtsRenamed_back rest undoes.2]
termination_by structural stmts

end

theorem Function.renamed_back (function : Function)
    (undoes : ∀ name ∈ function.mentioned, back (rename name) = name) :
    (function.renamed rename).renamed back = function := by
  rw [mentioned, List.forall_mem_append, parameterNames, List.forall_mem_map] at undoes
  have parameters : function.parameters.map (Binder.renamed back ∘ Binder.renamed rename) =
      function.parameters.map id :=
    List.map_congr_left fun binder among => Binder.renamed_back (undoes.1 binder among)
  rw [renamed, renamed, List.map_map, parameters, List.map_id, allStmtsRenamed_back _ undoes.2]

end

/-- The name among `names` that was given this one, or the same name if there is none. -/
def undoing (names : List String) (rename : String → String) (name : String) : String :=
  (names.find? fun other => rename other = name).getD name

theorem undoing_of_mem {names : List String} {rename : String → String}
    (injective : ∀ name ∈ names, ∀ other ∈ names, rename name = rename other → name = other) {name : String}
    (among : name ∈ names) : undoing names rename (rename name) = name := by
  rw [undoing]
  cases found : names.find? fun other => rename other = rename name with
  | none =>
    rw [List.find?_eq_none] at found
    exact absurd (decide_eq_true rfl) (found name among)
  | some other =>
    have same : rename other = rename name := by simpa using List.find?_some found
    exact injective other (List.mem_of_find?_eq_some found) name among same

theorem undoing_of_notMem {names : List String} {rename : String → String} {name : String}
    (new : name ∉ names.map rename) : undoing names rename name = name := by
  have unfound : (names.find? fun other => rename other = name) = none := by
    rw [List.find?_eq_none]
    intro other among same
    exact new (List.mem_map.mpr ⟨other, among, by simpa using same⟩)
  rw [undoing, unfound, Option.getD_none]

namespace Function.Renames
variable {function : Function} {members : List String} {rename : String → String}
  (renames : function.Renames members rename)
include renames

/-- A name that the function uses is a new name only if it is also an old one. -/
theorem local_of_renamed {name other : String} (among : name ∈ function.mentioned)
    (within : other ∈ function.locals) (same : rename other = name) : name ∈ function.locals := by
  subst same
  exact renames.fresh other within among

theorem undoes : ∀ name ∈ function.mentioned, undoing function.locals rename (rename name) = name := by
  intro name among
  by_cases within : name ∈ function.locals
  · exact undoing_of_mem renames.injective within
  · rw [renames.elsewhere name within]
    apply undoing_of_notMem
    intro given
    obtain ⟨other, withinOther, same⟩ := List.mem_map.mp given
    exact within (renames.local_of_renamed among withinOther same)

/-- Different variables of the function keep different names. -/
theorem distinct : ∀ name ∈ function.mentioned, ∀ other ∈ function.mentioned,
    rename name = rename other → name = other := by
  intro name among other amongOther same
  rw [← renames.undoes name among, same, renames.undoes other amongOther]

theorem back : (function.renamed rename).Renames members (undoing function.locals rename) := by
  have undone : ∀ name ∈ function.locals, undoing function.locals rename (rename name) = name :=
    fun name => undoing_of_mem renames.injective
  constructor
  all_goals rw [locals_renamed]
  · exact fun name => undoing_of_notMem
  all_goals rw [List.forall_mem_map]
  · intro name within
    rw [List.forall_mem_map]
    intro other withinOther same
    rw [undone name within, undone other withinOther] at same
    rw [same]
  · intro name within given
    rw [undone name within] at given ⊢
    rw [mentioned_renamed] at given
    obtain ⟨other, among, same⟩ := List.mem_map.mp given
    refine List.mem_map.mpr ⟨other, ?_, same⟩
    apply Decidable.byContradiction
    intro outside
    rw [renames.elsewhere other outside] at same
    exact outside (same ▸ within)
  · exact renames.after
  · intro name within
    rw [undone name within]
    exact renames.before name within

theorem renamed_undoing : (function.renamed rename).renamed (undoing function.locals rename) = function :=
  function.renamed_back renames.undoes

end Function.Renames

end Multiparty
