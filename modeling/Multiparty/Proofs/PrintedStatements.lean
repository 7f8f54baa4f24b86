import Multiparty.Proofs.PrintedExpressions
import Multiparty.Proofs.StatementTexts

/-! Printed statements read as the trees that they were typed from. No printed `else` changes its
`if`: the grammar has no tree in which an open `if` stands before an `else`. -/

namespace Multiparty
open Grammar Token Typing

namespace Typed

/-- The printed lines read as those terminals before any text. -/
def Writes (lines : List String) (text : List Terminal) : Prop :=
  ∀ rest following, Lexes rest following → Lexes ((ofLines lines).toList ++ rest) (text ++ following)

theorem ofLines_append (first second : List String) :
    (ofLines (first ++ second)).toList = (ofLines first).toList ++ (ofLines second).toList := by
  simp [ofLines, String.toList_join]

theorem writes_nil : Writes [] [] :=
  fun _ _ lexes => lexes

theorem Writes.append {first second : List String} {firstText secondText : List Terminal}
    (writes : Writes first firstText) (others : Writes second secondText) :
    Writes (first ++ second) (firstText ++ secondText) := by
  intro rest following lexes
  have whole := writes _ _ (others rest following lexes)
  rwa [ofLines_append, List.append_assoc, List.append_assoc]

theorem lexes_indent {rest : List Char} {text : List Terminal} (level : Nat) (lexes : Lexes rest text) :
    Lexes ((indent level).toList ++ rest) text := by
  induction level with
  | zero => exact lexes
  | succ level ih => simpa [indent] using ih.space.space.space.space

theorem writes_line {printed : String} {text : List Terminal} (level : Nat) (prints : Prints printed text) :
    Writes [line level printed] text := by
  intro rest following lexes
  have ended := prints ('\n' :: rest) following (ends_cons rest rfl) lexes.lineBreak
  have whole := lexes_indent level ended
  have chars : (ofLines [line level printed]).toList ++ rest =
      (indent level).toList ++ (printed.toList ++ '\n' :: rest) := by
    simp [ofLines, line]
  rwa [chars]

theorem Prints.writes {printed : String} {text : List Terminal} (prints : Prints printed text) :
    Writes [printed] text := by
  have same : line 0 printed = printed := String.toList_inj.mp (by simp [line, indent])
  have writes := writes_line 0 prints
  rwa [same] at writes

theorem prints_closing : Prints "\x7d" [.mark .closeCurly] :=
  fun _ _ _ lexes => .sign '\x7d' .closeCurly rfl rfl lexes

/-- A header with the block that it opens. -/
theorem Prints.opening {printed : String} {text : List Terminal} (prints : Prints printed text) :
    Prints (printed ++ " \x7b") (text ++ [.mark .openCurly]) := by
  intro rest following _ lexes
  have opened := Lexes.sign '\x7b' .openCurly rfl rfl lexes
  have whole := prints _ _ (ends_cons _ rfl) opened.space
  simpa using whole

/-- What the header of a compound statement reads as. -/
def Heads : Option String → List Terminal → Prop
  | none, text => text = []
  | some header, text => Prints header text

theorem Heads.lines {header? : Option String} {head : List Terminal} (heads : Heads header? head)
    (level : Nat) : Writes (headerLines level header?) head := by
  cases header? with
  | none =>
    cases heads
    exact writes_nil
  | some header => exact writes_line level heads

theorem Heads.opening {header? : Option String} {head : List Terminal} (heads : Heads header? head)
    (level : Nat) : Writes [openingLine level header?] (head ++ [.mark .openCurly]) := by
  cases header? with
  | none =>
    cases heads
    exact writes_line level fun _ _ _ lexes => .sign '\x7b' .openCurly rfl rfl lexes
  | some header => exact writes_line level (Prints.opening heads)

/-- The printed statement reads as those terminals under any header. -/
def Stmt.Writes (typed : Stmt) (text : List Terminal) : Prop :=
  ∀ header? head level, Heads header? head → Typed.Writes (typed.linesUnder header? level) (head ++ text)

/-- The printed statement has the tree that it was typed from. -/
def Stmt.Reprints (typed : Stmt) (stmt : Multiparty.Stmt) : Prop :=
  ∃ text, StmtText text stmt ∧ typed.Writes text

theorem Heads.guarded {header? : Option String} {head : List Terminal} (heads : Heads header? head)
    (level : Nat) {guard : String} {text bodyText : List Terminal} (prints : Prints guard text)
    {body : Stmt} (writes : body.Writes bodyText) :
    Writes (headerLines level header? ++ body.linesUnder (some guard) (bodyLevel level header?))
      (head ++ (text ++ bodyText)) :=
  (heads.lines level).append (writes (some guard) text (bodyLevel level header?) prints)

theorem Prints.ended {printed : String} {text : List Terminal} (prints : Prints printed text) :
    Prints (printed ++ ";") (text ++ [.mark .semicolon]) := by
  intro rest following _ lexes
  have whole := prints _ _ (ends_cons _ rfl) (.sign ';' .semicolon rfl rfl lexes)
  simpa using whole

theorem Heads.simple {header? : Option String} {head : List Terminal} (heads : Heads header? head)
    (level : Nat) {printed : String} {text : List Terminal} (prints : Prints printed text) :
    Writes (headerLines level header? ++ [line (bodyLevel level header?) (printed ++ ";")])
      (head ++ (text ++ [.mark .semicolon])) :=
  (heads.lines level).append (writes_line _ prints.ended)

theorem prints_type {word : Kind} {type : Ty} (known : word.type? = some type) :
    Prints type.name [.mark word] := by
  apply prints_reserved
  cases word <;> cases known <;> decide

/-- A type or another word before a name. -/
theorem Prints.spaced {first second : String} {firstText secondText : List Terminal}
    (prints : Prints first firstText) (others : Prints second secondText) :
    Prints (first ++ " " ++ second) (firstText ++ secondText) := by
  intro rest following ends lexes
  have later := others rest following ends lexes
  have whole := prints _ _ (ends_cons _ rfl) later.space
  simpa using whole

theorem Prints.assigned {target value : String} {text valueText : List Terminal}
    (prints : Prints target text) (printsValue : Prints value valueText) :
    Prints (target ++ " = " ++ value) (text ++ .mark .assignment :: valueText) := by
  intro rest following ends lexes
  have later := (printsValue rest following ends lexes).space
  have whole := prints _ _ (ends_cons _ rfl) (Lexes.space (.sign '=' .assignment rfl rfl later))
  simpa using whole

/-- A condition, or what a loop runs over, in parentheses after its word. -/
theorem Prints.headed {word inner : String} {kind : Kind} {text : List Terminal}
    (known : (word, kind) ∈ reservedWords) (prints : Prints inner text) :
    Prints (word ++ " (" ++ inner ++ ")") (.mark kind :: .mark .openParen :: text ++ [.mark .closeParen]) := by
  have whole := (prints_reserved known).spaced prints.parentheses
  intro rest following ends lexes
  simpa using whole rest following ends lexes

/-- The printed statements have the trees that they were typed from. -/
def ReprintStmts (typed : List Stmt) (stmts : List Multiparty.Stmt) : Prop :=
  ∃ printed : List (List Terminal × Multiparty.Stmt), printed.map Prod.snd = stmts ∧
    (∀ stmt ∈ printed, StmtText stmt.1 stmt.2) ∧
    ∀ level, Writes (allLines level typed) (printed.map Prod.fst).flatten

theorem reprintStmts_nil : ReprintStmts [] [] :=
  ⟨[], rfl, List.forall_mem_nil _, fun _ => writes_nil⟩

theorem ReprintStmts.cons {first : Stmt} {rest : List Stmt} {stmt : Multiparty.Stmt}
    {stmts : List Multiparty.Stmt} (reprints : first.Reprints stmt) (reprint : ReprintStmts rest stmts) :
    ReprintStmts (first :: rest) (stmt :: stmts) := by
  obtain ⟨text, spelled, writes⟩ := reprints
  obtain ⟨printed, rfl, texts, all⟩ := reprint
  refine ⟨(text, stmt) :: printed, rfl, ?_, fun level => (writes none [] level rfl).append (all level)⟩
  rw [List.forall_mem_cons]
  exact ⟨spelled, texts⟩

section
variable {span : Span}

theorem reprints_declaration {type : Ty} {name : String} {text : List Terminal} {binder : Binder}
    (spelled : BinderText text binder) (prints : Prints (type.name ++ " " ++ name) text) :
    (Stmt.declaration name type none span).Reprints (.declaration binder none .nowhere) := by
  refine ⟨_, .declaration spelled, ?_⟩
  intro header? head level heads
  exact heads.simple level prints

theorem reprints_initialised {type : Ty} {name : String} {text : List Terminal} {binder : Binder}
    (spelled : BinderText text binder) (prints : Prints (type.name ++ " " ++ name) text) {value : Expr}
    {expr : Multiparty.Expr} (reprints : value.Reprints expr) :
    (Stmt.declaration name type (some value) span).Reprints
      (.declaration binder (some ⟨binder.name, expr, .nowhere⟩) .nowhere) := by
  obtain ⟨valueText, spelledValue, printsValue⟩ := reprints.whole
  refine ⟨_, .initialised spelled spelledValue, ?_⟩
  intro header? head level heads
  exact heads.simple level (prints.assigned printsValue)

theorem reprints_assign {target : String} (spelled : IsName target) {value : Expr}
    {expr : Multiparty.Expr} (reprints : value.Reprints expr) :
    (Stmt.assign target value span).Reprints (.assign ⟨bareName target, expr, .nowhere⟩ .nowhere) := by
  obtain ⟨text, spelledValue, prints⟩ := reprints.whole
  refine ⟨_, .assign spelledValue, ?_⟩
  intro header? head level heads
  exact heads.simple level ((prints_name spelled).assigned prints)

theorem reprints_expressionStatement {value : Expr} {expr : Multiparty.Expr}
    (reprints : value.Reprints expr) :
    (Stmt.expression value span).Reprints (.expression expr .nowhere) := by
  obtain ⟨text, spelled, prints⟩ := reprints.whole
  refine ⟨_, .expression spelled, ?_⟩
  intro header? head level heads
  exact heads.simple level prints

theorem reprints_display {value : Expr} {expr : Multiparty.Expr} (reprints : value.Reprints expr) :
    (Stmt.display value span).Reprints (.display expr .nowhere) := by
  obtain ⟨text, spelled, prints⟩ := reprints.whole
  refine ⟨_, .display spelled, ?_⟩
  intro header? head level heads
  have word := prints_reserved (show ("display", Kind.displayWord) ∈ reservedWords by decide)
  have same : "display(" ++ value.print ++ ");" = "display" ++ "(" ++ value.print ++ ")" ++ ";" :=
    String.toList_inj.mp (by simp)
  rw [Stmt.linesUnder, same]
  have whole := heads.simple level (word.applied prints)
  rwa [List.append_assoc, List.append_assoc] at whole

theorem reprints_ifThen {condition : Expr} {guard : Multiparty.Expr} (reprints : condition.Reprints guard)
    {body : Stmt} {stmt : Multiparty.Stmt} (reprintsBody : body.Reprints stmt) :
    (Stmt.ifThen condition body span).Reprints (.ifThen guard stmt .nowhere) := by
  obtain ⟨text, spelled, prints⟩ := reprints.whole
  obtain ⟨bodyText, spelledBody, writes⟩ := reprintsBody
  refine ⟨_, .ifThen spelled spelledBody, ?_⟩
  intro header? head level heads
  have guard := prints.headed (show ("if", Kind.ifWord) ∈ reservedWords by decide)
  rw [Stmt.linesUnder]
  simpa using heads.guarded level guard writes

/-- The `else` stays with its `if` since the body before it ends closed. -/
theorem reprints_ifElse {condition : Expr} {guard : Multiparty.Expr} (reprints : condition.Reprints guard)
    {body otherwise : Stmt} {stmt other : Multiparty.Stmt} (reprintsBody : body.Reprints stmt)
    (closed : stmt.endsOpen = false) (reprintsElse : otherwise.Reprints other) :
    (Stmt.ifElse condition body otherwise span).Reprints (.ifElse guard stmt other .nowhere) := by
  obtain ⟨text, spelled, prints⟩ := reprints.whole
  obtain ⟨bodyText, spelledBody, writes⟩ := reprintsBody
  obtain ⟨elseText, spelledElse, writesElse⟩ := reprintsElse
  refine ⟨_, .ifElse spelled spelledBody closed spelledElse, ?_⟩
  intro header? head level heads
  have guard := prints.headed (show ("if", Kind.ifWord) ∈ reservedWords by decide)
  have word := prints_reserved (show ("else", Kind.elseWord) ∈ reservedWords by decide)
  have whole := (heads.guarded level guard writes).append
    (writesElse (some "else") _ (bodyLevel level header?) word)
  rw [Stmt.linesUnder]
  simpa using whole

theorem reprints_whileLoop {condition : Expr} {guard : Multiparty.Expr}
    (reprints : condition.Reprints guard) {body : Stmt} {stmt : Multiparty.Stmt}
    (reprintsBody : body.Reprints stmt) :
    (Stmt.whileLoop condition body span).Reprints (.whileLoop guard stmt .nowhere) := by
  obtain ⟨text, spelled, prints⟩ := reprints.whole
  obtain ⟨bodyText, spelledBody, writes⟩ := reprintsBody
  refine ⟨_, .whileLoop spelled spelledBody, ?_⟩
  intro header? head level heads
  have guard := prints.headed (show ("while", Kind.whileWord) ∈ reservedWords by decide)
  rw [Stmt.linesUnder]
  simpa using heads.guarded level guard writes

theorem reprints_forEach {name group client : String} {text : List Terminal} {binder : Binder}
    (spelled : BinderText text binder) (prints : Prints (Ty.client.name ++ " " ++ name) text)
    (groupSpelled : IsName group) {body : Stmt} {stmt : Multiparty.Stmt}
    (reprintsBody : body.Reprints stmt) :
    (Stmt.forEach name group client body span).Reprints
      (.forEach binder (bareName group) stmt .nowhere) := by
  obtain ⟨bodyText, spelledBody, writes⟩ := reprintsBody
  refine ⟨_, .forEach spelled spelledBody, ?_⟩
  intro header? head level heads
  have among := (prints.spaced (prints_reserved
    (show ("in", Kind.inWord) ∈ reservedWords by decide))).spaced (prints_name groupSpelled)
  have guard := among.headed (show ("for", Kind.forWord) ∈ reservedWords by decide)
  have same : "for (client " ++ name ++ " in " ++ group ++ ")" = "for" ++ " (" ++
      (Ty.client.name ++ " " ++ name ++ " " ++ "in" ++ " " ++ group) ++ ")" :=
    String.toList_inj.mp (by simp [Ty.name])
  rw [Stmt.linesUnder, same]
  simpa using heads.guarded level guard writes

theorem reprints_returnsNothing {type : Ty} :
    (Stmt.returns none type span).Reprints (.returns none .nowhere) := by
  refine ⟨_, .returnsNothing, ?_⟩
  intro header? head level heads
  have word := prints_reserved (show ("return", Kind.returnWord) ∈ reservedWords by decide)
  rw [Stmt.linesUnder]
  simpa using heads.simple level word

theorem reprints_returns {type : Ty} {value : Expr} {expr : Multiparty.Expr}
    (reprints : value.Reprints expr) :
    (Stmt.returns (some value) type span).Reprints (.returns (some expr) .nowhere) := by
  obtain ⟨text, spelled, prints⟩ := reprints.whole
  refine ⟨_, .returns spelled, ?_⟩
  intro header? head level heads
  have word := prints_reserved (show ("return", Kind.returnWord) ∈ reservedWords by decide)
  rw [Stmt.linesUnder]
  simpa using heads.simple level (word.spaced prints)

theorem reprints_block {body : List Stmt} {stmts : List Multiparty.Stmt}
    (reprint : ReprintStmts body stmts) : (Stmt.block body span).Reprints (.block stmts .nowhere) := by
  obtain ⟨printed, rfl, texts, writes⟩ := reprint
  refine ⟨_, .block texts, ?_⟩
  intro header? head level heads
  have whole := ((heads.opening level).append (writes (level + 1))).append
    (writes_line level prints_closing)
  rw [Stmt.linesUnder]
  simpa using whole

end

section
variable {options : Options} {setting : Setting}

theorem reprints_binder {text : List Terminal} {binder source : Binder} (spelled : BinderText text binder)
    (lexical : ∀ terminal ∈ text, terminal.Lexical) (same : source.bare = binder) :
    Prints (source.type.name ++ " " ++ source.name.name) text := by
  cases spelled with
  | mk known =>
    obtain ⟨rfl, sameName, -⟩ := Binder.mk.inj same
    simp only [List.forall_mem_cons] at lexical
    obtain ⟨-, spelled, -⟩ := lexical
    rw [← (Identifier.mk.inj sameName).1] at spelled ⊢
    exact (prints_type known).spaced (prints_name spelled)

theorem reprint_stmts {body : List (List Terminal × Multiparty.Stmt)}
    (each : ∀ stmt ∈ body, ∀ (loops : Known Interface) (context after : Known Ty)
      (source : Multiparty.Stmt) (typed : Stmt), source.bare = stmt.2 →
      StmtDerives options setting loops context source typed after → typed.Reprints stmt.2)
    {loops : Known Interface} {context after : Known Ty} {sources : List Multiparty.Stmt}
    {typed : List Stmt} (same : allStmtsBare sources = body.map Prod.snd)
    (derive : StmtsDerive options setting loops context sources typed after) :
    ReprintStmts typed (body.map Prod.snd) := by
  induction body generalizing context sources typed with
  | nil =>
    cases derive with
    | nil => exact reprintStmts_nil
    | cons => cases same
  | cons stmt body ih =>
    rw [List.forall_mem_cons] at each
    cases derive with
    | nil => cases same
    | cons derive others =>
      obtain ⟨first, rest⟩ := List.cons.inj same
      exact .cons (each.1 _ _ _ _ _ first derive) (ih each.2 rest others)

/-- Every statement that typechecks prints as a text of the tree that it was written with. -/
theorem reprints_stmt {text : List Terminal} {stmt : Multiparty.Stmt} (spelled : StmtText text stmt)
    (lexical : ∀ terminal ∈ text, terminal.Lexical) {loops : Known Interface} {context after : Known Ty}
    {source : Multiparty.Stmt} {typed : Stmt} (same : source.bare = stmt)
    (derive : StmtDerives options setting loops context source typed after) : typed.Reprints stmt := by
  induction spelled generalizing loops context after source typed with
  | declaration spelled =>
    cases source with
    | declaration =>
      obtain ⟨sameBinder, sameInitial, -⟩ := Multiparty.Stmt.declaration.inj same
      cases Option.map_eq_none_iff.mp sameInitial
      rw [List.forall_mem_append] at lexical
      cases derive
      exact reprints_declaration spelled (reprints_binder spelled lexical.1 sameBinder)
    | _ => cases same
  | initialised spelled spelledValue =>
    cases source with
    | declaration =>
      obtain ⟨sameBinder, sameInitial, -⟩ := Multiparty.Stmt.declaration.inj same
      obtain ⟨assignment, rfl, sameAssignment⟩ := Option.map_eq_some_iff.mp sameInitial
      obtain ⟨-, sameValue, -⟩ := Assignment.mk.inj sameAssignment
      simp only [List.forall_mem_append, List.forall_mem_cons] at lexical
      obtain ⟨⟨binderLexical, -, valueLexical⟩, -⟩ := lexical
      cases derive with
      | initialised _ assigns =>
        exact reprints_initialised spelled (reprints_binder spelled binderLexical sameBinder)
          (reprints_expression spelledValue valueLexical sameValue assigns.value)
    | _ => cases same
  | assign spelled =>
    cases source with
    | assign =>
      obtain ⟨sameAssignment, -⟩ := Multiparty.Stmt.assign.inj same
      obtain ⟨sameTarget, sameValue, -⟩ := Assignment.mk.inj sameAssignment
      simp only [List.cons_append, List.forall_mem_cons, List.forall_mem_append] at lexical
      obtain ⟨target, -, valueLexical, -⟩ := lexical
      cases derive with
      | assign assigns =>
        rw [← sameTarget]
        rw [← (Identifier.mk.inj sameTarget).1] at target
        exact reprints_assign target (reprints_expression spelled valueLexical sameValue assigns.value)
    | _ => cases same
  | expression spelled =>
    cases source with
    | expression =>
      obtain ⟨sameValue, -⟩ := Multiparty.Stmt.expression.inj same
      rw [List.forall_mem_append] at lexical
      cases derive with
      | expression derive =>
        exact reprints_expressionStatement (reprints_expression spelled lexical.1 sameValue derive)
    | _ => cases same
  | display spelled =>
    cases source with
    | display =>
      obtain ⟨sameValue, -⟩ := Multiparty.Stmt.display.inj same
      simp only [List.cons_append, List.forall_mem_cons, List.forall_mem_append] at lexical
      obtain ⟨-, -, valueLexical, -⟩ := lexical
      cases derive with
      | display derive =>
        exact reprints_display (reprints_expression spelled valueLexical sameValue derive)
    | _ => cases same
  | ifThen spelled _ ih =>
    cases source with
    | ifThen =>
      obtain ⟨sameGuard, sameBody, -⟩ := Multiparty.Stmt.ifThen.inj same
      simp only [List.cons_append, List.forall_mem_cons, List.forall_mem_append] at lexical
      obtain ⟨-, -, guardLexical, -, bodyLexical⟩ := lexical
      cases derive with
      | ifThen guards derive =>
        exact reprints_ifThen (reprints_expression spelled guardLexical sameGuard guards.derives)
          (ih bodyLexical sameBody derive)
    | _ => cases same
  | ifElse spelled _ closed _ ihBody ihElse =>
    cases source with
    | ifElse =>
      obtain ⟨sameGuard, sameBody, sameElse, -⟩ := Multiparty.Stmt.ifElse.inj same
      simp only [List.cons_append, List.forall_mem_cons, List.forall_mem_append] at lexical
      obtain ⟨-, -, ⟨guardLexical, -, bodyLexical⟩, -, elseLexical⟩ := lexical
      cases derive with
      | ifElse guards derive deriveElse =>
        exact reprints_ifElse (reprints_expression spelled guardLexical sameGuard guards.derives)
          (ihBody bodyLexical sameBody derive) closed (ihElse elseLexical sameElse deriveElse)
    | _ => cases same
  | whileLoop spelled _ ih =>
    cases source with
    | whileLoop =>
      obtain ⟨sameGuard, sameBody, -⟩ := Multiparty.Stmt.whileLoop.inj same
      simp only [List.cons_append, List.forall_mem_cons, List.forall_mem_append] at lexical
      obtain ⟨-, -, guardLexical, -, bodyLexical⟩ := lexical
      cases derive with
      | whileLoop guards derive =>
        exact reprints_whileLoop (reprints_expression spelled guardLexical sameGuard guards.derives)
          (ih bodyLexical sameBody derive)
    | _ => cases same
  | forEach spelled _ ih =>
    cases source with
    | forEach =>
      obtain ⟨sameBinder, sameGroup, sameBody, -⟩ := Multiparty.Stmt.forEach.inj same
      simp only [List.cons_append, List.forall_mem_cons, List.forall_mem_append] at lexical
      obtain ⟨-, -, binderLexical, -, group, -, bodyLexical⟩ := lexical
      cases derive with
      | forEach _ clients _ _ derive =>
        have prints := reprints_binder spelled binderLexical sameBinder
        rw [clients] at prints
        rw [← sameGroup]
        rw [← (Identifier.mk.inj sameGroup).1] at group
        exact reprints_forEach spelled prints group (ih bodyLexical sameBody derive)
    | _ => cases same
  | returnsNothing =>
    cases source with
    | returns =>
      obtain ⟨sameValue, -⟩ := Multiparty.Stmt.returns.inj same
      cases Option.map_eq_none_iff.mp sameValue
      cases derive
      exact reprints_returnsNothing
    | _ => cases same
  | returns spelled =>
    cases source with
    | returns =>
      obtain ⟨sameValue, -⟩ := Multiparty.Stmt.returns.inj same
      obtain ⟨value, rfl, sameGiven⟩ := Option.map_eq_some_iff.mp sameValue
      simp only [List.cons_append, List.forall_mem_cons, List.forall_mem_append] at lexical
      obtain ⟨-, valueLexical, -⟩ := lexical
      cases derive with
      | returns derive =>
        exact reprints_returns (reprints_expression spelled valueLexical sameGiven derive)
    | _ => cases same
  | block _ ih =>
    cases source with
    | block =>
      obtain ⟨sameBody, -⟩ := Multiparty.Stmt.block.inj same
      simp only [List.cons_append, List.forall_mem_cons, List.forall_mem_append] at lexical
      obtain ⟨-, bodyLexical, -⟩ := lexical
      cases derive with
      | block derive =>
        apply reprints_block
        apply reprint_stmts _ sameBody derive
        intro stmt among loops context after source typed same derive
        have lexical := fun terminal within => bodyLexical terminal
          (List.mem_flatten_of_mem (List.mem_map_of_mem among) within)
        exact ih stmt among lexical same derive
    | _ => cases same

end

end Typed
end Multiparty
