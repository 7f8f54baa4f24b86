import Mathlib
import Multiparty.Proofs.PrintedPrograms
import Multiparty.Proofs.ProgramChecks
import Multiparty.Proofs.ProgramReading
import Multiparty.Proofs.Respanning

/-! What typechecks is printed as a source text that typechecks again, with the same typed tree. -/

namespace Multiparty
open Grammar Token Typing

namespace Typed

theorem Expr.precedence_bare (expr : Expr) : expr.bare.precedence = expr.precedence := by
  cases expr <;> rfl

mutual

theorem Expr.print_bare (expr : Expr) : expr.bare.print = expr.print := by
  cases expr with
  | binary operator left right mark =>
    simp only [Expr.bare, Expr.print, Expr.precedence_bare, Expr.print_bare left, Expr.print_bare right]
  | not operand mark =>
    simp only [Expr.bare, Expr.print, Expr.precedence_bare, Expr.print_bare operand]
  | call function arguments mark => simp only [Expr.bare, Expr.print, printAll_allBare arguments]
  | invoke target client function arguments mark =>
    simp only [Expr.bare, Expr.print, printAll_allBare arguments]
  | put tunnel value mark => simp only [Expr.bare, Expr.print, Expr.print_bare value]
  | remotePut target client tunnel value mark =>
    simp only [Expr.bare, Expr.print, Expr.print_bare value]
  | reveal body names mark => simp only [Expr.bare, Expr.print, Expr.print_bare body]
  | int | bool | string | symbol | read | remoteRead | readInt => rfl
termination_by structural expr

theorem printAll_allBare (arguments : List Expr) : printAll (allBare arguments) = printAll arguments := by
  cases arguments with
  | nil => rfl
  | cons first rest => simp only [allBare, printAll, Expr.print_bare first, printAll_allBare rest]
termination_by structural arguments

end

mutual

theorem Stmt.linesUnder_bare (header? : Option String) (level : Nat) (stmt : Stmt) :
    stmt.bare.linesUnder header? level = stmt.linesUnder header? level := by
  cases stmt with
  | declaration name type initial span =>
    cases initial with
    | none => rfl
    | some value => simp only [Stmt.bare, Option.map_some, Stmt.linesUnder, value.print_bare]
  | assign target value span => simp only [Stmt.bare, Stmt.linesUnder, value.print_bare]
  | expression value span => simp only [Stmt.bare, Stmt.linesUnder, value.print_bare]
  | display value span => simp only [Stmt.bare, Stmt.linesUnder, value.print_bare]
  | ifThen condition body span =>
    simp only [Stmt.bare, Stmt.linesUnder, condition.print_bare, Stmt.linesUnder_bare _ _ body]
  | ifElse condition body otherwise span =>
    simp only [Stmt.bare, Stmt.linesUnder, condition.print_bare, Stmt.linesUnder_bare _ _ body,
      Stmt.linesUnder_bare _ _ otherwise]
  | whileLoop condition body span =>
    simp only [Stmt.bare, Stmt.linesUnder, condition.print_bare, Stmt.linesUnder_bare _ _ body]
  | forEach name group client body span =>
    simp only [Stmt.bare, Stmt.linesUnder, Stmt.linesUnder_bare _ _ body]
  | returns value type span =>
    cases value with
    | none => rfl
    | some value => simp only [Stmt.bare, Option.map_some, Stmt.linesUnder, value.print_bare]
  | block body span => simp only [Stmt.bare, Stmt.linesUnder, allLines_allStmtsBare _ body]
termination_by structural stmt

theorem allLines_allStmtsBare (level : Nat) (stmts : List Stmt) :
    allLines level (allStmtsBare stmts) = allLines level stmts := by
  cases stmts with
  | nil => rfl
  | cons first rest =>
    simp only [allStmtsBare, allLines, Stmt.linesUnder_bare _ _ first, allLines_allStmtsBare _ rest]
termination_by structural stmts

end

theorem Function.lines_bare (function : Function) : function.bare.lines = function.lines := by
  simp only [Function.bare, Function.lines, allLines_allStmtsBare]

theorem Client.lines_bare (client : Client) : client.bare.lines = client.lines := by
  simp [Client.bare, Client.lines, partLines, Tunnel.bare, Function.comp_def, Function.lines_bare]

theorem Server.lines_bare (server : Server) : server.bare.lines = server.lines := by
  simp [Server.bare, Server.lines, partLines, Group.bare, Function.comp_def, Function.lines_bare]

/-- The printed text does not tell where the program stood. -/
theorem Program.print_bare (program : Program) : program.bare.print = program.print := by
  simp [Program.bare, Program.print, Program.lines, List.flatMap_map, Client.lines_bare,
    Server.lines_bare]

end Typed

theorem parseSource_eq_ok {source file : String} {program : Program} :
    parseSource source file = .ok program ↔
      ∃ tokens, Token.list source (some file) = .ok tokens ∧ parseTokens file tokens = .ok program := by
  unfold parseSource
  cases Token.list source (some file) with
  | error => exact ⟨nofun, nofun⟩
  | ok tokens =>
    constructor
    · intro ran
      exact ⟨tokens, rfl, ran⟩
    · rintro ⟨_, ⟨⟩, ran⟩
      exact ran

theorem checkSource_eq_ok {options : Options} {source file : String} {typed : Typed.Program} :
    checkSource options source file = .ok typed ↔
      ∃ program, parseSource source file = .ok program ∧ checkProgram options program = .ok typed := by
  unfold checkSource
  cases parseSource source file with
  | error => exact ⟨nofun, nofun⟩
  | ok program =>
    constructor
    · intro ran
      exact ⟨program, rfl, ran⟩
    · rintro ⟨_, ⟨⟩, ran⟩
      exact ran

/-- What parses is a text of its tree. -/
theorem spelled_of_parseSource {source file : String} {program : Program}
    (ran : parseSource source file = .ok program) : Spelled ProgramText program.bare := by
  obtain ⟨tokens, listed, parsed⟩ := parseSource_eq_ok.mp ran
  obtain ⟨text, ⟨body, last, rfl, ended, inside, rfl⟩, lexical⟩ := listFrom_lexical listed
  exact ⟨_, programText_of_parseTokens ended inside parsed, lexical⟩

/-- A source that reads as a text of a tree parses as that tree. -/
theorem parseSource_of_lexes {source : String} {text : List Terminal} {tree : Program}
    (lexes : Lexes source.toList text) (spelled : ProgramText text tree) (file : String) :
    ∃ program, parseSource source file = .ok program ∧ program.bare = tree := by
  obtain ⟨tokens, listed, body, last, rfl, ended, inside, rfl⟩ := lexes.listFrom file 0
  obtain ⟨program, parsed, same⟩ := parseTokens_of_programText ended inside spelled
  exact ⟨program, parseSource_eq_ok.mpr ⟨_, listed, parsed⟩, same⟩

/-- Whatever a source is typed as is printed as a source that typechecks, in the same file and under the same
options, as the same typed program but for places, and that prints as itself. -/
theorem checkSource_print {options : Options} {source file : String} {typed : Typed.Program}
    (checked : checkSource options source file = .ok typed) :
    ∃ again, checkSource options typed.print file = .ok again ∧ again.bare = typed.bare ∧
      again.print = typed.print := by
  obtain ⟨program, parsed, accepted⟩ := checkSource_eq_ok.mp checked
  have derives := derives_of_checkProgram accepted
  obtain ⟨text, spelled, lexical⟩ := spelled_of_parseSource parsed
  obtain ⟨printedText, printedSpelled, writes⟩ := Typed.reprints_program spelled lexical rfl derives
  have lexes : Lexes typed.print.toList printedText := by
    have whole := writes [] [] .nil
    rwa [List.append_nil, List.append_nil] at whole
  obtain ⟨other, reparsed, same⟩ := parseSource_of_lexes lexes printedSpelled file
  obtain ⟨again, otherDerives, bare⟩ := derives.respanned same
  refine ⟨again, checkSource_eq_ok.mpr ⟨other, reparsed, checkProgram_run otherDerives⟩, bare, ?_⟩
  rw [← again.print_bare, bare, typed.print_bare]

theorem exists_of_isOk {ε α : Type} {result : Except ε α} (settled : result.isOk = true) :
    ∃ value, result = .ok value := by
  cases result with
  | error => cases settled
  | ok value => exact ⟨value, rfl⟩

/-- A source on one line, with parentheses that its tree needs. -/
theorem checkSource_print_product :
    ∃ typed, checkSource ⟨false⟩
        "declare server Main \x7b function int run() \x7b return (1+2)*3; \x7d \x7d" "main" = .ok typed ∧
      ∃ again, checkSource ⟨false⟩ typed.print "main" = .ok again ∧ again.bare = typed.bare ∧
        again.print = typed.print := by
  obtain ⟨typed, checked⟩ := exists_of_isOk (show (checkSource ⟨false⟩
    "declare server Main \x7b function int run() \x7b return (1+2)*3; \x7d \x7d" "main").isOk = true by cbv)
  exact ⟨typed, checked, checkSource_print checked⟩

end Multiparty
