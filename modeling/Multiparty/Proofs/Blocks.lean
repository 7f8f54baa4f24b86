import Multiparty.Proofs.ChangedBodies

/-! Blocks only group. What stands in a block of a list of statements may as well stand in the list itself: the program
is typed alike, or refused for the same violation. Blocks that are the body of an `if` or of a loop stay. -/

namespace Multiparty

/-- What a statement amounts to in a list. -/
def Stmt.contents : Stmt → List Stmt
  | .block body _ => body
  | stmt => [stmt]

mutual

/-- Without the blocks that stand in lists within the statement. -/
def Stmt.spliced : Stmt → Stmt
  | .declaration binder initial span => .declaration binder initial span
  | .assign assignment span => .assign assignment span
  | .expression value span => .expression value span
  | .display value span => .display value span
  | .ifThen condition body span => .ifThen condition body.spliced span
  | .ifElse condition body otherwise span => .ifElse condition body.spliced otherwise.spliced span
  | .whileLoop condition body span => .whileLoop condition body.spliced span
  | .forEach binder group body span => .forEach binder group body.spliced span
  | .returns value span => .returns value span
  | .block body span => .block (allSpliced body) span

/-- Each block of the list gives way to its contents, which are spliced themselves. -/
def allSpliced : List Stmt → List Stmt
  | [] => []
  | first :: rest => first.spliced.contents ++ allSpliced rest

end

mutual

theorem Stmt.contents_of_mem_spliced (stmt : Stmt) :
    ∀ piece ∈ stmt.spliced.contents, piece.contents = [piece] := by
  cases stmt with
  | block body span => exact contents_of_mem_allSpliced body
  | _ => exact List.forall_mem_singleton.mpr rfl
termination_by structural stmt

/-- No block is left in a spliced list. -/
theorem contents_of_mem_allSpliced (stmts : List Stmt) :
    ∀ piece ∈ allSpliced stmts, piece.contents = [piece] := by
  cases stmts with
  | nil => exact nofun
  | cons first rest =>
    rw [allSpliced, List.forall_mem_append]
    exact ⟨Stmt.contents_of_mem_spliced first, contents_of_mem_allSpliced rest⟩
termination_by structural stmts

end

/-- Blocks within blocks give way too. A block that is the body of a loop stays, and is spliced. -/
example (guard : Expr) (first second third : Expr) :
    let display (value : Expr) : Stmt := .display value .nowhere
    let block (body : List Stmt) : Stmt := .block body .nowhere
    let loop (body : Stmt) : Stmt := .whileLoop guard body .nowhere
    allSpliced [block [block [display first], block [], loop (block [block [display second]])], display third] =
      [display first, loop (block [display second]), display third] := rfl

def Program.spliced (program : Program) : Program :=
  program.mapBodies allSpliced

namespace Typed

def Stmt.contents : Stmt → List Stmt
  | .block body _ => body
  | stmt => [stmt]

mutual

def Stmt.spliced : Stmt → Stmt
  | .declaration name type initial span => .declaration name type initial span
  | .assign target value span => .assign target value span
  | .expression value span => .expression value span
  | .display value span => .display value span
  | .ifThen condition body span => .ifThen condition body.spliced span
  | .ifElse condition body otherwise span => .ifElse condition body.spliced otherwise.spliced span
  | .whileLoop condition body span => .whileLoop condition body.spliced span
  | .forEach name group client body span => .forEach name group client body.spliced span
  | .returns value type span => .returns value type span
  | .block body span => .block (allSpliced body) span

def allSpliced : List Stmt → List Stmt
  | [] => []
  | first :: rest => first.spliced.contents ++ allSpliced rest

end

def Program.spliced (program : Program) : Program :=
  program.mapBodies allSpliced

end Typed

namespace Typing

section
variable {options : Options} {setting : Setting} {loops : Known Interface} {context middle after : Known Ty}

theorem StmtsDerive.append {first second : List Stmt} {typedFirst typedSecond : List Typed.Stmt}
    (derive : StmtsDerive options setting loops context first typedFirst middle)
    (later : StmtsDerive options setting loops middle second typedSecond after) :
    StmtsDerive options setting loops context (first ++ second) (typedFirst ++ typedSecond) after := by
  induction first generalizing context typedFirst with
  | nil =>
    cases derive
    exact later
  | cons stmt first ih =>
    cases derive with
    | cons derives rest => exact .cons derives (ih rest)

theorem StmtDerives.contents {stmt : Stmt} {typed : Typed.Stmt}
    (derives : StmtDerives options setting loops context stmt typed after) :
    StmtsDerive options setting loops context stmt.contents typed.contents after := by
  cases derives with
  | block derive => exact derive
  | declaration admitted => exact .cons (.declaration admitted) .nil
  | initialised admitted assigns => exact .cons (.initialised admitted assigns) .nil
  | assign assigns => exact .cons (.assign assigns) .nil
  | expression derives => exact .cons (.expression derives) .nil
  | display derives strict => exact .cons (.display derives strict) .nil
  | ifThen guards body => exact .cons (.ifThen guards body) .nil
  | ifElse guards body otherwise => exact .cons (.ifElse guards body otherwise) .nil
  | whileLoop guards body => exact .cons (.whileLoop guards body) .nil
  | forEach server kind known admitted body => exact .cons (.forEach server kind known admitted body) .nil
  | returnsNothing void => exact .cons (.returnsNothing void) .nil
  | returns derives declared => exact .cons (.returns derives declared) .nil

section
variable {violated : Violation} {place : Position}

theorem StmtsBreak.append {first : List Stmt} (broken : StmtsBreak options setting loops context first violated place)
    (second : List Stmt) : StmtsBreak options setting loops context (first ++ second) violated place := by
  induction first generalizing context with
  | nil => cases broken
  | cons stmt first ih =>
    cases broken with
    | here broken => exact .here broken
    | later derives broken => exact .later derives (ih broken)

theorem StmtsDerive.break_after {first second : List Stmt} {typed : List Typed.Stmt}
    (derive : StmtsDerive options setting loops context first typed middle)
    (broken : StmtsBreak options setting loops middle second violated place) :
    StmtsBreak options setting loops context (first ++ second) violated place := by
  induction first generalizing context typed with
  | nil =>
    cases derive
    exact broken
  | cons stmt first ih =>
    cases derive with
    | cons derives rest => exact .later derives (ih rest)

theorem StmtBreaks.contents {stmt : Stmt} (broken : StmtBreaks options setting loops context stmt violated place) :
    StmtsBreak options setting loops context stmt.contents violated place := by
  cases stmt with
  | block body span =>
    cases broken with
    | block broken => exact broken
  | _ => exact .here broken

end

end

section
variable {options : Options} {setting : Setting}

mutual

/-- Within a statement, blocks that stand in lists have no part in how it is typed. -/
theorem StmtDerives.spliced {loops : Known Interface} {context after : Known Ty} {stmt : Stmt} {typed : Typed.Stmt}
    (derives : StmtDerives options setting loops context stmt typed after) :
    StmtDerives options setting loops context stmt.spliced typed.spliced after :=
  match derives with
  | .declaration admitted => .declaration admitted
  | .initialised admitted assigns => .initialised admitted assigns
  | .assign assigns => .assign assigns
  | .expression derives => .expression derives
  | .display derives strict => .display derives strict
  | .ifThen guards body => .ifThen guards body.spliced
  | .ifElse guards body otherwise => .ifElse guards body.spliced otherwise.spliced
  | .whileLoop guards body => .whileLoop guards body.spliced
  | .forEach server kind known admitted body => .forEach server kind known admitted body.spliced
  | .returnsNothing void => .returnsNothing void
  | .returns derives declared => .returns derives declared
  | .block derive => .block derive.spliced

theorem StmtsDerive.spliced {loops : Known Interface} {context after : Known Ty} {stmts : List Stmt}
    {typed : List Typed.Stmt} (derive : StmtsDerive options setting loops context stmts typed after) :
    StmtsDerive options setting loops context (allSpliced stmts) (Typed.allSpliced typed) after :=
  match derive with
  | .nil => .nil
  | .cons first rest => first.spliced.contents.append rest.spliced

end

mutual

theorem StmtBreaks.spliced {loops : Known Interface} {context : Known Ty} {stmt : Stmt} {violated : Violation}
    {place : Position} (broken : StmtBreaks options setting loops context stmt violated place) :
    StmtBreaks options setting loops context stmt.spliced violated place :=
  match broken with
  | .declares broken => .declares broken
  | .initial admitted broken => .initial admitted broken
  | .assign broken => .assign broken
  | .expression broken => .expression broken
  | .displayed broken => .displayed broken
  | .display derives strict other => .display derives strict other
  | .ifGuard broken => .ifGuard broken
  | .ifBody guards broken => .ifBody guards broken.spliced
  | .ifElseGuard broken => .ifElseGuard broken
  | .ifElseBody guards broken => .ifElseBody guards broken.spliced
  | .otherwise guards body broken => .otherwise guards body.spliced broken.spliced
  | .whileGuard broken => .whileGuard broken
  | .whileBody guards broken => .whileBody guards broken.spliced
  | .outsideServer client => .outsideServer client
  | .loopVariable server other => .loopVariable server other
  | .group server kind missing => .group server kind missing
  | .loopDeclares server kind known broken => .loopDeclares server kind known broken
  | .loopBody server kind known admitted broken => .loopBody server kind known admitted broken.spliced
  | .returnsNothing other => .returnsNothing other
  | .returned broken => .returned broken
  | .returns derives other => .returns derives other
  | .block broken => .block broken.spliced

theorem StmtsBreak.spliced {loops : Known Interface} {context : Known Ty} {stmts : List Stmt} {violated : Violation}
    {place : Position} (broken : StmtsBreak options setting loops context stmts violated place) :
    StmtsBreak options setting loops context (allSpliced stmts) violated place :=
  match broken with
  | .here broken => broken.spliced.contents.append _
  | .later first broken => first.spliced.contents.break_after broken.spliced

end

end

/-- Splicing blocks into the lists that they stand in changes nothing but the typed tree, which is spliced likewise.
What is refused is refused for the same violation, at the same position. -/
theorem checkProgram_spliced (options : Options) (program : Program) :
    checkProgram options program.spliced = (checkProgram options program).map Typed.Program.spliced := by
  cases checked : checkProgram options program with
  | ok typed =>
    have derives := derives_of_checkProgram checked
    exact checkProgram_run (derives.mapBodies StmtsDerive.spliced)
  | error diagnostic =>
    obtain ⟨violated, place, rfl, broken⟩ := breaks_of_checkProgram checked
    exact checkProgram_break (broken.mapBodies StmtsDerive.spliced StmtsBreak.spliced)

end Typing
end Multiparty
