import Multiparty.Proofs.ChangedBodies

/-! Strict display filters programs. It accepts what is accepted without it, with the same typed tree, if that tree
displays strings only. Otherwise it refuses the first expression that is displayed and no string. -/

namespace Multiparty

namespace Typed

mutual

/-- What is displayed within a statement, in the order in which it stands there. -/
def Stmt.displayed : Stmt → List Expr
  | .display value _ => [value]
  | .declaration _ _ _ _ | .assign _ _ _ | .expression _ _ | .returns _ _ _ => []
  | .ifThen _ body _ | .whileLoop _ body _ | .forEach _ _ _ body _ => body.displayed
  | .ifElse _ body otherwise _ => body.displayed ++ otherwise.displayed
  | .block body _ => allDisplayed body

def allDisplayed : List Stmt → List Expr
  | [] => []
  | first :: rest => first.displayed ++ allDisplayed rest

end

def Function.displayed (function : Function) : List Expr :=
  allDisplayed function.body

def Client.displayed (client : Client) : List Expr :=
  client.functions.flatMap Function.displayed

def Server.displayed (server : Server) : List Expr :=
  server.functions.flatMap Function.displayed

def Program.displayed (program : Program) : List Expr :=
  program.clients.flatMap Client.displayed ++ program.server.displayed

def firstOther? (displayed : List Expr) : Option Expr :=
  displayed.find? fun value => value.type ≠ .string

theorem firstOther?_eq_none {displayed : List Expr} :
    firstOther? displayed = none ↔ ∀ value ∈ displayed, value.type = .string := by
  simp [firstOther?]

theorem firstOther?_append (first second : List Expr) :
    firstOther? (first ++ second) = (firstOther? first).or (firstOther? second) :=
  List.find?_append

end Typed

namespace Typing
open Typed

/-- What strict display makes of something that is accepted without it: `derives` if only strings are displayed, and
otherwise `breaks`, for the first expression that is none. -/
def Strictly (displayed : List Typed.Expr) (derives : Prop) (breaks : Violation → Position → Prop) : Prop :=
  match firstOther? displayed with
  | none => derives
  | some value => breaks (.displayType value.type) value.start

section
variable {displayed more : List Typed.Expr} {derives others : Prop}
  {breaks otherBreaks : Violation → Position → Prop}

theorem Strictly.imp (strictly : Strictly displayed derives breaks) (derive : derives → others)
    (fault : ∀ {violated place}, breaks violated place → otherBreaks violated place) :
    Strictly displayed others otherBreaks := by
  unfold Strictly at *
  cases found : firstOther? displayed with
  | none =>
    rw [found] at strictly
    exact derive strictly
  | some value =>
    rw [found] at strictly
    exact fault strictly

/-- What comes second is reached only if the first displays nothing but strings. -/
theorem Strictly.append (strictly : Strictly displayed derives breaks)
    (later : derives → Strictly more others otherBreaks)
    (fault : ∀ {violated place}, breaks violated place → otherBreaks violated place) :
    Strictly (displayed ++ more) others otherBreaks := by
  unfold Strictly at strictly
  cases found : firstOther? displayed with
  | none =>
    rw [found] at strictly
    rw [Strictly, firstOther?_append, found, Option.none_or]
    exact later strictly
  | some value =>
    rw [found] at strictly
    rw [Strictly, firstOther?_append, found, Option.some_or]
    exact fault strictly

end

theorem display_strictly {setting : Setting} {loops : Known Interface} {context : Known Ty} {value : Expr}
    {span : Span} {typed : Typed.Expr} (derives : ExprDerives setting loops context value typed) :
    Strictly [typed] (StmtDerives ⟨true⟩ setting loops context (.display value span) (.display typed span) context)
      (StmtBreaks ⟨true⟩ setting loops context (.display value span)) := by
  unfold Strictly
  by_cases string : typed.type = .string
  · rw [firstOther?_eq_none.mpr (List.forall_mem_singleton.mpr string)]
    exact .display derives fun _ => string
  · have found : firstOther? [typed] = some typed := List.find?_cons_of_pos (decide_eq_true string)
    rw [found]
    exact .display derives rfl string

mutual

theorem StmtDerives.strictly {setting : Setting} {loops : Known Interface} {context after : Known Ty} {stmt : Stmt}
    {typed : Typed.Stmt} (derives : StmtDerives ⟨false⟩ setting loops context stmt typed after) :
    Strictly typed.displayed (StmtDerives ⟨true⟩ setting loops context stmt typed after)
      (StmtBreaks ⟨true⟩ setting loops context stmt) :=
  match derives with
  | .declaration admitted => StmtDerives.declaration admitted
  | .initialised admitted assigns => StmtDerives.initialised admitted assigns
  | .assign assigns => StmtDerives.assign assigns
  | .expression derives => StmtDerives.expression derives
  | .display derives _ => display_strictly derives
  | .ifThen guards body => body.strictly.imp (.ifThen guards) (.ifBody guards)
  | .ifElse guards body otherwise =>
    body.strictly.append
      (fun body => otherwise.strictly.imp (.ifElse guards body) (.otherwise guards body)) (.ifElseBody guards)
  | .whileLoop guards body => body.strictly.imp (.whileLoop guards) (.whileBody guards)
  | .forEach server kind known admitted body =>
    body.strictly.imp (.forEach server kind known admitted) (.loopBody server kind known admitted)
  | .returnsNothing void => StmtDerives.returnsNothing void
  | .returns derives declared => StmtDerives.returns derives declared
  | .block derive => derive.strictly.imp .block .block

theorem StmtsDerive.strictly {setting : Setting} {loops : Known Interface} {context after : Known Ty}
    {stmts : List Stmt} {typed : List Typed.Stmt}
    (derive : StmtsDerive ⟨false⟩ setting loops context stmts typed after) :
    Strictly (allDisplayed typed) (StmtsDerive ⟨true⟩ setting loops context stmts typed after)
      (StmtsBreak ⟨true⟩ setting loops context stmts) :=
  match derive with
  | .nil => StmtsDerive.nil
  | .cons first rest =>
    first.strictly.append (fun first => rest.strictly.imp (.cons first) (.later first)) .here

end

/-- Items that are filtered one by one are filtered as a list. -/
theorem InTurn.strictly {α β : Type} {derives others : List α → α → β → Prop}
    {breaks : List α → α → Violation → Position → Prop} {displayed : β → List Typed.Expr} {before items : List α}
    {typed : List β} (turn : InTurn derives before items typed)
    (each : ∀ before item typed, derives before item typed →
      Strictly (displayed typed) (others before item typed) (breaks before item)) :
    Strictly (typed.flatMap displayed) (InTurn others before items typed)
      (BreaksInTurn others breaks before items) := by
  induction turn with
  | nil => exact InTurn.nil
  | cons derived _ ih =>
    rw [List.flatMap_cons]
    refine (each _ _ _ derived).append (fun derived => ?_) .here
    exact ih.imp (.cons derived) (.later derived)

theorem FunctionDerives.strictly {owner : String} {holdings : Holdings} {before : List Function}
    {function : Function} {typed : Typed.Function}
    (derives : FunctionDerives ⟨false⟩ owner holdings before function typed) :
    Strictly typed.displayed (FunctionDerives ⟨true⟩ owner holdings before function typed)
      (FunctionBreaks ⟨true⟩ owner holdings before function) := by
  obtain ⟨fresh, allowed, parameters, ⟨after, body⟩, result⟩ := derives
  exact body.strictly.imp (fun body => ⟨fresh, allowed, parameters, ⟨after, body⟩, result⟩)
    (.body fresh allowed parameters)

theorem ClientDerives.strictly {before : List Client} {client : Client} {typed : Typed.Client}
    (derives : ClientDerives ⟨false⟩ before client typed) :
    Strictly typed.displayed (ClientDerives ⟨true⟩ before client typed) (ClientBreaks ⟨true⟩ before client) := by
  obtain ⟨fresh, tunnels, functions, result⟩ := derives
  have strictly := functions.strictly fun _ _ _ derives => derives.strictly
  exact strictly.imp (fun functions => ⟨fresh, tunnels, functions, result⟩) (.functions fresh tunnels)

theorem ServerDerives.strictly {clients : List Client} {server : Server} {typed : Typed.Server}
    (derives : ServerDerives ⟨false⟩ clients server typed) :
    Strictly typed.displayed (ServerDerives ⟨true⟩ clients server typed) (ServerBreaks ⟨true⟩ clients server) := by
  obtain ⟨groups, functions, result⟩ := derives
  have strictly := functions.strictly fun _ _ _ derives => derives.strictly
  exact strictly.imp (fun functions => ⟨groups, functions, result⟩) (.functions groups)

theorem ProgramDerives.strictly {program : Program} {typed : Typed.Program}
    (derives : ProgramDerives ⟨false⟩ program typed) :
    Strictly typed.displayed (ProgramDerives ⟨true⟩ program typed) (ProgramBreaks ⟨true⟩ program) := by
  obtain ⟨clients, server, result⟩ := derives
  have strictly := clients.strictly fun _ _ _ derives => derives.strictly
  refine strictly.append (fun clients => ?_) .clients
  exact server.strictly.imp (fun server => ⟨clients, server, result⟩) (.server clients)

mutual

theorem StmtDerives.permissive {options : Options} {setting : Setting} {loops : Known Interface}
    {context after : Known Ty} {stmt : Stmt} {typed : Typed.Stmt}
    (derives : StmtDerives options setting loops context stmt typed after) :
    StmtDerives ⟨false⟩ setting loops context stmt typed after :=
  match derives with
  | .declaration admitted => .declaration admitted
  | .initialised admitted assigns => .initialised admitted assigns
  | .assign assigns => .assign assigns
  | .expression derives => .expression derives
  | .display derives _ => .display derives nofun
  | .ifThen guards body => .ifThen guards body.permissive
  | .ifElse guards body otherwise => .ifElse guards body.permissive otherwise.permissive
  | .whileLoop guards body => .whileLoop guards body.permissive
  | .forEach server kind known admitted body => .forEach server kind known admitted body.permissive
  | .returnsNothing void => .returnsNothing void
  | .returns derives declared => .returns derives declared
  | .block derive => .block derive.permissive

theorem StmtsDerive.permissive {options : Options} {setting : Setting} {loops : Known Interface}
    {context after : Known Ty} {stmts : List Stmt} {typed : List Typed.Stmt}
    (derive : StmtsDerive options setting loops context stmts typed after) :
    StmtsDerive ⟨false⟩ setting loops context stmts typed after :=
  match derive with
  | .nil => .nil
  | .cons first rest => .cons first.permissive rest.permissive

end

theorem ProgramDerives.permissive {options : Options} {program : Program} {typed : Typed.Program}
    (derives : ProgramDerives options program typed) : ProgramDerives ⟨false⟩ program typed := by
  have same : ProgramDerives ⟨false⟩ (program.mapBodies id) (typed.mapBodies id) :=
    derives.mapBodies StmtsDerive.permissive
  rwa [Program.mapBodies_id, Typed.Program.mapBodies_id] at same

/-- Of an accepted program, strict display refuses the first expression that is displayed and no string. -/
theorem checkProgram_strict {program : Program} {typed : Typed.Program}
    (accepted : checkProgram ⟨false⟩ program = .ok typed) :
    checkProgram ⟨true⟩ program = match firstOther? typed.displayed with
      | none => .ok typed
      | some value => .error (.violation (.displayType value.type) value.start) := by
  have strictly := (derives_of_checkProgram accepted).strictly
  unfold Strictly at strictly
  split
  next found =>
    rw [found] at strictly
    exact checkProgram_run strictly
  next value found =>
    rw [found] at strictly
    exact checkProgram_break strictly

/-- Strict display accepts what is accepted without it and displays strings only. What it alone refuses, it refuses for
the first expression that is displayed and no string. -/
theorem checkProgram_strictDisplay (program : Program) :
    (∀ typed, checkProgram ⟨true⟩ program = .ok typed ↔
      checkProgram ⟨false⟩ program = .ok typed ∧ ∀ value ∈ typed.displayed, value.type = .string) ∧
    ∀ typed diagnostic, checkProgram ⟨false⟩ program = .ok typed → checkProgram ⟨true⟩ program = .error diagnostic →
      ∃ earlier value later, typed.displayed = earlier ++ value :: later ∧
        (∀ other ∈ earlier, other.type = .string) ∧ value.type ≠ .string ∧
        diagnostic = .violation (.displayType value.type) value.start := by
  constructor
  · intro typed
    constructor
    · intro accepted
      have permitted := checkProgram_run (derives_of_checkProgram accepted).permissive
      refine ⟨permitted, firstOther?_eq_none.mp ?_⟩
      rw [checkProgram_strict permitted] at accepted
      split at accepted
      next found => exact found
      next => cases accepted
    · rintro ⟨permitted, strings⟩
      rw [checkProgram_strict permitted, firstOther?_eq_none.mpr strings]
  · intro typed diagnostic permitted refused
    rw [checkProgram_strict permitted] at refused
    split at refused
    next => cases refused
    next value found =>
      cases refused
      obtain ⟨other, earlier, later, whole, strings⟩ := List.find?_eq_some_iff_append.mp found
      refine ⟨earlier, value, later, whole, fun other among => ?_, of_decide_eq_true other, rfl⟩
      simpa using strings other among

/-- A function that displays a text, a number within a block of a condition, and a truth value. -/
def announcing : Program :=
  let display (value : Expr) : Stmt := .display value .nowhere
  let sum : Expr := .binary .add (.int 1 .nowhere) (.int 2 .nowhere) ⟨⟨40, "main"⟩, ⟨45, "main"⟩⟩
  { clients := []
    server := ⟨⟨"Chair", .nowhere⟩, [],
      [⟨.void, ⟨"announce", .nowhere⟩, [],
        [display (.string "sum" .nowhere), .ifThen (.bool true .nowhere) (.block [display sum] .nowhere) .nowhere,
          display (.bool true .nowhere)], .nowhere⟩], .nowhere⟩
    span := .nowhere }

/-- The number comes first of what is no string. -/
theorem checkProgram_strictDisplay_announcing :
    ∃ typed, checkProgram ⟨false⟩ announcing = .ok typed ∧
      checkProgram ⟨true⟩ announcing = .error (.violation (.displayType .int) ⟨40, "main"⟩) ∧
      ∃ earlier value later, typed.displayed = earlier ++ value :: later ∧
        (∀ other ∈ earlier, other.type = .string) ∧ value.type ≠ .string ∧
        Diagnostic.violation (.displayType .int) ⟨40, "main"⟩ =
          .violation (.displayType value.type) value.start := by
  refine ⟨_, rfl, rfl, ?_⟩
  exact (checkProgram_strictDisplay announcing).2 _ _ rfl rfl

end Typing
end Multiparty
