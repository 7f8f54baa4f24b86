import Multiparty.Proofs.ExpressionReading
import Multiparty.Proofs.StatementTexts

/-! Every text of a statement is read, and read as that statement, where no `else` follows that its end would
take. -/

namespace Multiparty
open Grammar Multiparty.Parser Token

namespace Grammar

theorem BinderText.first {text : List Terminal} {binder : Binder} (spelled : BinderText text binder) :
    ∃ word rest, text = .mark word :: rest ∧
      Table.standard.statement word = some .declaration := by
  cases spelled with
  | @mk word type name known =>
    refine ⟨word, _, rfl, ?_⟩
    cases word <;> first | rfl | cases known

theorem StmtText.first {text : List Terminal} {stmt : Stmt} (spelled : StmtText text stmt) :
    ∃ first rest, text = first :: rest ∧ first.kind ≠ .closeCurly ∧ first.kind ≠ .elseWord ∧
      first.kind ≠ .endOfInput := by
  cases spelled with
  | declaration binder | initialised binder =>
    obtain ⟨word, rest, rfl, known⟩ := binder.first
    refine ⟨_, _, rfl, ?_, ?_, ?_⟩ <;> rintro rfl <;> cases known
  | expression value =>
    obtain ⟨first, rest, rfl, starts, -⟩ := value.first
    refine ⟨_, _, rfl, ?_, ?_, ?_⟩ <;> intro same <;> rw [same] at starts <;> cases starts
  | _ => exact ⟨_, _, rfl, nofun, nofun, nofun⟩

end Grammar

theorem Grammar.Terminal.eq_mark {terminal : Terminal} {kind : Kind} (same : terminal.kind = kind)
    (plain : kind.isMark) : terminal = .mark kind := by
  cases terminal with
  | mark => exact congrArg Terminal.mark same
  | _ =>
    subst same
    cases plain

namespace Parser
variable {cursor later : Cursor}

theorem binder_complete {text : List Terminal} {expected : Binder} (spelled : BinderText text expected)
    (consumed : cursor.Consumes text later) :
    ∃ value, binder cursor = .done value later ∧ value.bare = expected := by
  cases spelled with
  | @mk word type name known =>
    obtain ⟨_, _, named⟩ := id consumed
    refine ⟨⟨type, ⟨name, cursor.advance.current.span⟩, later.spanFrom cursor.position⟩, ?_, rfl⟩
    rw [binder, bind_done (position_eq_done.mpr ⟨rfl, rfl⟩),
      bind_done (type_eq_done.mpr ⟨by rw [mark_kind consumed, known], rfl⟩),
      bind_done (identifier_complete named), named.2.2]
    rfl

theorem condition_complete {text : List Terminal} {expr : Expr} (spelled : ExprText 1 text expr)
    (consumed : cursor.Consumes (.mark .openParen :: text ++ [.mark .closeParen]) later) :
    ∃ value, condition .standard cursor = .done value later ∧ value.bare = expr := by
  obtain ⟨_, _, rest⟩ := id consumed
  obtain ⟨middle, taken, closes⟩ := Cursor.consumes_append.mp rest
  obtain ⟨value, ran, same⟩ := expression_complete spelled taken (mark_kind closes) (by decide)
  refine ⟨value, ?_, same⟩
  rw [condition, bind_done (expect_complete consumed), bind_done ran,
    bind_done (expect_complete closes), closes.2.2]
  rfl

/-- The text is read as the statement, from anywhere and with any bound that suffices. -/
def ReadAs (text : List Terminal) (stmt : Stmt) : Prop :=
  ∀ fuel cursor later, cursor.Consumes text later → (stmt.endsOpen → later.kind ≠ .elseWord) →
    cursor.remaining < fuel →
    ∃ value, statementWithin .standard fuel cursor = .done value later ∧ value.bare = stmt

/-- It is enough that the rule for the first token reads the text. -/
theorem readAs_of_rule {text : List Terminal} {stmt : Stmt} (rule : StatementRule)
    (starts : ∃ first rest, text = first :: rest ∧ Table.standard.statement first.kind = some rule)
    (reads : ∀ fuel cursor later, cursor.Consumes text later →
      (stmt.endsOpen → later.kind ≠ .elseWord) → cursor.remaining ≤ fuel →
      ∃ value, statementBy .standard (statementWithin .standard fuel) rule cursor =
        .done value later ∧ value.bare = stmt) : ReadAs text stmt := by
  intro fuel cursor later consumed follows near
  obtain ⟨first, rest, rfl, known⟩ := starts
  obtain ⟨less, rfl⟩ : ∃ less, fuel = less + 1 := ⟨fuel - 1, by omega⟩
  obtain ⟨value, ran, same⟩ := reads less cursor later consumed follows (by omega)
  refine ⟨value, ?_, same⟩
  rw [statementWithin, bind_done (kind_eq_done.mpr ⟨rfl, rfl⟩), consumed.kind_eq, known]
  exact ran

theorem declaration_readAs {text : List Terminal} {expected : Binder}
    (spelled : BinderText text expected) :
    ReadAs (text ++ [.mark .semicolon]) (.declaration expected none .nowhere) := by
  obtain ⟨word, rest, same, known⟩ := spelled.first
  apply readAs_of_rule .declaration ⟨.mark word, rest ++ _, by rw [same]; rfl, known⟩
  intro fuel cursor later consumed _ _
  obtain ⟨middle, taken, stop⟩ := Cursor.consumes_append.mp consumed
  obtain ⟨binder, ran, same⟩ := binder_complete spelled taken
  refine ⟨.declaration binder none (later.spanFrom cursor.position), ?_, by rw [Stmt.bare, same]; rfl⟩
  have none : initial? .standard binder.name middle = .done none middle := by
    rw [initial?, bind_done (kind_eq_done.mpr ⟨mark_kind stop, rfl⟩)]
    rfl
  rw [statementBy, declaration, bind_done (position_eq_done.mpr ⟨rfl, rfl⟩), bind_done ran,
    bind_done none, bind_done (expectFor_complete _ stop), stop.2.2]
  rfl

theorem initialised_readAs {text valueText : List Terminal} {expected : Binder} {expr : Expr}
    (spelled : BinderText text expected) (spelledValue : ExprText 1 valueText expr) :
    ReadAs (text ++ .mark .assignment :: valueText ++ [.mark .semicolon])
      (.declaration expected (some ⟨expected.name, expr, .nowhere⟩) .nowhere) := by
  obtain ⟨word, rest, same, known⟩ := spelled.first
  refine readAs_of_rule .declaration
    ⟨.mark word, rest ++ .mark .assignment :: valueText ++ [.mark .semicolon], by rw [same]; rfl, known⟩
    ?_
  intro fuel cursor later consumed _ _
  rw [List.append_assoc] at consumed
  obtain ⟨middle, taken, equals⟩ := Cursor.consumes_append.mp consumed
  obtain ⟨last, takenValue, stop⟩ := Cursor.consumes_append.mp equals.2.2
  obtain ⟨binder, ran, same⟩ := binder_complete spelled taken
  obtain ⟨value, ranValue, sameValue⟩ :=
    expression_complete spelledValue takenValue (mark_kind stop) (by decide)
  have initial : initial? .standard binder.name middle =
      .done (some ⟨binder.name, value, binder.name.span.join value.span⟩) last := by
    rw [initial?, bind_done (kind_eq_done.mpr ⟨mark_kind equals, rfl⟩)]
    simp only
    rw [bind_done advance_complete, bind_done ranValue]
    rfl
  refine ⟨.declaration binder (some ⟨binder.name, value, binder.name.span.join value.span⟩)
    (later.spanFrom cursor.position), ?_, ?_⟩
  · rw [statementBy, declaration, bind_done (position_eq_done.mpr ⟨rfl, rfl⟩), bind_done ran,
      bind_done initial, bind_done (expectFor_complete _ stop), stop.2.2]
    rfl
  · rw [Stmt.bare, same, Option.map_some, Assignment.bare, sameValue, ← same]
    rfl

theorem kindAhead_one (more : cursor.ahead ≠ []) : cursor.kindAhead 1 = cursor.advance.kind := by
  obtain ⟨behind, current, ahead⟩ := cursor
  cases ahead with
  | nil => exact absurd rfl more
  | cons next rest => rfl

theorem assign_readAs {target : String} {text : List Terminal} {expr : Expr}
    (spelled : ExprText 1 text expr) :
    ReadAs (.name target :: .mark .assignment :: text ++ [.mark .semicolon])
      (.assign ⟨bareName target, expr, .nowhere⟩ .nowhere) := by
  apply readAs_of_rule .identifier ⟨_, _, rfl, rfl⟩
  intro fuel cursor later consumed _ _
  obtain ⟨_, more, equals⟩ := id consumed
  obtain ⟨middle, taken, stop⟩ := Cursor.consumes_append.mp equals.2.2
  obtain ⟨value, ran, same⟩ := expression_complete spelled taken (mark_kind stop) (by decide)
  refine ⟨.assign ⟨⟨target, cursor.current.span⟩, value, later.spanFrom cursor.position⟩
    (later.spanFrom cursor.position), ?_, ?_⟩
  · have ahead : cursor.kindAhead 1 = .assignment := by
      rw [kindAhead_one more, equals.kind_eq]
      rfl
    rw [statementBy, namedStatement, bind_done (kindAhead_eq_done.mpr ⟨ahead, rfl⟩)]
    simp only
    rw [assignment, bind_done (position_eq_done.mpr ⟨rfl, rfl⟩),
      bind_done (identifier_complete consumed), bind_done (expect_complete equals), bind_done ran,
      bind_done (expectFor_complete _ stop), stop.2.2]
    rfl
  · rw [Stmt.bare, Assignment.bare, same]
    rfl

theorem expressionStatement_complete {text : List Terminal} {expr : Expr}
    (spelled : ExprText 1 text expr) (consumed : cursor.Consumes (text ++ [.mark .semicolon]) later) :
    ∃ value, expressionStatement .standard cursor = .done value later ∧
      value.bare = .expression expr .nowhere := by
  obtain ⟨middle, taken, stop⟩ := Cursor.consumes_append.mp consumed
  obtain ⟨value, ran, same⟩ := expression_complete spelled taken (mark_kind stop) (by decide)
  refine ⟨.expression value (later.spanFrom cursor.position), ?_, by rw [Stmt.bare, same]⟩
  rw [expressionStatement, bind_done (position_eq_done.mpr ⟨rfl, rfl⟩), bind_done ran,
    bind_done (expect_complete stop), stop.2.2]
  rfl

/-- What begins with a name is an assignment if an equals sign comes second, which it does in no expression. -/
theorem expression_readAs {text : List Terminal} {expr : Expr} (spelled : ExprText 1 text expr) :
    ReadAs (text ++ [.mark .semicolon]) (.expression expr .nowhere) := by
  obtain ⟨first, rest, same, starts, second⟩ := spelled.first
  by_cases name : first.kind = .identifier
  · apply readAs_of_rule .identifier ⟨first, rest ++ _, by rw [same]; rfl, by rw [name]; rfl⟩
    intro fuel cursor later consumed _ _
    obtain ⟨value, ran, bare⟩ := expressionStatement_complete spelled consumed
    refine ⟨value, ?_, bare⟩
    rw [same] at consumed
    obtain ⟨_, more, others⟩ := consumed
    have ahead : cursor.kindAhead 1 ≠ .assignment := by
      rw [kindAhead_one more]
      cases rest with
      | nil =>
        rw [mark_kind others]
        nofun
      | cons next rest =>
        rw [others.kind_eq]
        intro equals
        exact second (congrArg some (Terminal.eq_mark equals rfl))
    rw [statementBy, namedStatement, bind_done (kindAhead_eq_done.mpr ⟨rfl, rfl⟩)]
    generalize cursor.kindAhead 1 = kind at ahead
    split
    next => exact absurd rfl ahead
    next => exact ran
  · intro fuel cursor later consumed _ near
    obtain ⟨value, ran, bare⟩ := expressionStatement_complete spelled consumed
    refine ⟨value, ?_, bare⟩
    rw [same] at consumed
    obtain ⟨less, rfl⟩ : ∃ less, fuel = less + 1 := ⟨fuel - 1, by omega⟩
    have none : Table.standard.statement cursor.kind = none := by
      rw [consumed.kind_eq]
      generalize first.kind = kind at starts name
      cases kind <;> first | rfl | exact absurd rfl name | cases starts
    rw [statementWithin, bind_done (kind_eq_done.mpr ⟨rfl, rfl⟩), none]
    exact ran

theorem display_readAs {text : List Terminal} {expr : Expr} (spelled : ExprText 1 text expr) :
    ReadAs (.mark .displayWord :: .mark .openParen :: text ++ [.mark .closeParen, .mark .semicolon])
      (.display expr .nowhere) := by
  apply readAs_of_rule .display ⟨_, _, rfl, rfl⟩
  intro fuel cursor later consumed _ _
  have inner : cursor.advance.Consumes
      ((.mark .openParen :: text ++ [.mark .closeParen]) ++ [.mark .semicolon]) later := by
    simpa using consumed.2.2
  obtain ⟨middle, taken, stop⟩ := Cursor.consumes_append.mp inner
  obtain ⟨value, ran, same⟩ := condition_complete spelled taken
  refine ⟨.display value (later.spanFrom cursor.current.span.start), ?_, by rw [Stmt.bare, same]⟩
  rw [statementBy, display, bind_done advance_complete, bind_done ran,
    bind_done (expect_complete stop), stop.2.2]
  rfl

theorem returnsNothing_readAs :
    ReadAs [.mark .returnWord, .mark .semicolon] (.returns none .nowhere) := by
  apply readAs_of_rule .returns ⟨_, _, rfl, rfl⟩
  intro fuel cursor later consumed _ _
  obtain ⟨_, _, stop⟩ := consumed
  refine ⟨.returns none (later.spanFrom cursor.current.span.start), ?_, rfl⟩
  rw [statementBy, returns, bind_done advance_complete,
    bind_done (kind_eq_done.mpr ⟨mark_kind stop, rfl⟩)]
  simp only
  rw [bind_done (expect_complete stop), stop.2.2]
  rfl

theorem returns_readAs {text : List Terminal} {expr : Expr} (spelled : ExprText 1 text expr) :
    ReadAs (.mark .returnWord :: text ++ [.mark .semicolon]) (.returns (some expr) .nowhere) := by
  apply readAs_of_rule .returns ⟨_, _, rfl, rfl⟩
  intro fuel cursor later consumed _ _
  obtain ⟨_, _, inner⟩ := consumed
  obtain ⟨middle, taken, stop⟩ := Cursor.consumes_append.mp inner
  obtain ⟨value, ran, same⟩ := expression_complete spelled taken (mark_kind stop) (by decide)
  have something : cursor.advance.kind ≠ .semicolon := by
    obtain ⟨first, rest, rfl, starts, -⟩ := spelled.first
    rw [taken.kind_eq]
    intro none
    rw [none] at starts
    cases starts
  refine ⟨.returns (some value) (later.spanFrom cursor.current.span.start), ?_,
    by rw [Stmt.bare, Option.map_some, same]⟩
  rw [statementBy, returns, bind_done advance_complete, bind_done (kind_eq_done.mpr ⟨rfl, rfl⟩)]
  generalize cursor.advance.kind = kind at something
  split
  next => exact absurd rfl something
  next =>
    rw [bind_done ran, bind_done (expect_complete stop), stop.2.2]
    rfl

section
variable {text bodyText : List Terminal} {guard : Expr} {body : Stmt} (spelled : ExprText 1 text guard)
  (reads : ReadAs bodyText body)
include spelled reads

theorem ifThen_readAs : ReadAs (.mark .ifWord :: .mark .openParen :: text ++ .mark .closeParen ::
    bodyText) (.ifThen guard body .nowhere) := by
  apply readAs_of_rule .conditional ⟨_, _, rfl, rfl⟩
  intro fuel cursor later consumed follows near
  have inner : cursor.advance.Consumes
      ((.mark .openParen :: text ++ [.mark .closeParen]) ++ bodyText) later := by
    simpa using consumed.2.2
  obtain ⟨middle, takenGuard, takenBody⟩ := Cursor.consumes_append.mp inner
  have fewer := Cursor.remaining_advance consumed.2.1
  have fewerGuard := takenGuard.remaining
  have noElse := follows rfl
  obtain ⟨condition, ranGuard, sameGuard⟩ := condition_complete spelled takenGuard
  obtain ⟨value, ran, same⟩ := reads fuel middle later takenBody (fun _ => noElse) (by omega)
  refine ⟨.ifThen condition value (later.spanFrom cursor.current.span.start), ?_,
    by rw [Stmt.bare, sameGuard, same]⟩
  rw [statementBy, conditional, bind_done advance_complete, bind_done ranGuard, bind_done ran,
    bind_done (kind_eq_done.mpr ⟨rfl, rfl⟩)]
  generalize later.kind = kind at noElse
  split
  next => exact absurd rfl noElse
  next => rfl

/-- The body before the `else` is whole, so the reader leaves the `else` to this `if`. -/
theorem ifElse_readAs {otherwiseText : List Terminal} {otherwise : Stmt}
    (whole : body.endsOpen = false) (readsOtherwise : ReadAs otherwiseText otherwise) :
    ReadAs (.mark .ifWord :: .mark .openParen :: text ++ .mark .closeParen :: bodyText ++
      .mark .elseWord :: otherwiseText) (.ifElse guard body otherwise .nowhere) := by
  apply readAs_of_rule .conditional ⟨_, _, rfl, rfl⟩
  intro fuel cursor later consumed follows near
  have inner : cursor.advance.Consumes ((.mark .openParen :: text ++ [.mark .closeParen]) ++
      (bodyText ++ .mark .elseWord :: otherwiseText)) later := by
    simpa using consumed.2.2
  obtain ⟨middle, takenGuard, rest⟩ := Cursor.consumes_append.mp inner
  obtain ⟨last, takenBody, elseWord⟩ := Cursor.consumes_append.mp rest
  have fewer := Cursor.remaining_advance consumed.2.1
  have fewerGuard := takenGuard.remaining
  have fewerBody := takenBody.remaining
  have fewerElse := Cursor.remaining_advance elseWord.2.1
  obtain ⟨condition, ranGuard, sameGuard⟩ := condition_complete spelled takenGuard
  obtain ⟨value, ran, same⟩ :=
    reads fuel middle last takenBody (fun ends => by simp [whole] at ends) (by omega)
  obtain ⟨other, ranOther, sameOther⟩ :=
    readsOtherwise fuel last.advance later elseWord.2.2 follows (by omega)
  refine ⟨.ifElse condition value other (later.spanFrom cursor.current.span.start), ?_,
    by rw [Stmt.bare, sameGuard, same, sameOther]⟩
  rw [statementBy, conditional, bind_done advance_complete, bind_done ranGuard, bind_done ran,
    bind_done (kind_eq_done.mpr ⟨mark_kind elseWord, rfl⟩)]
  simp only
  rw [bind_done advance_complete, bind_done ranOther]
  rfl

theorem whileLoop_readAs : ReadAs (.mark .whileWord :: .mark .openParen :: text ++
    .mark .closeParen :: bodyText) (.whileLoop guard body .nowhere) := by
  apply readAs_of_rule .whileLoop ⟨_, _, rfl, rfl⟩
  intro fuel cursor later consumed follows near
  have inner : cursor.advance.Consumes
      ((.mark .openParen :: text ++ [.mark .closeParen]) ++ bodyText) later := by
    simpa using consumed.2.2
  obtain ⟨middle, takenGuard, takenBody⟩ := Cursor.consumes_append.mp inner
  have fewer := Cursor.remaining_advance consumed.2.1
  have fewerGuard := takenGuard.remaining
  obtain ⟨condition, ranGuard, sameGuard⟩ := condition_complete spelled takenGuard
  obtain ⟨value, ran, same⟩ := reads fuel middle later takenBody follows (by omega)
  refine ⟨.whileLoop condition value (later.spanFrom cursor.current.span.start), ?_,
    by rw [Stmt.bare, sameGuard, same]⟩
  rw [statementBy, whileLoop, bind_done advance_complete, bind_done ranGuard, bind_done ran]
  rfl

end

theorem forEach_readAs {text bodyText : List Terminal} {expected : Binder} {body : Stmt}
    {group : String} (spelled : BinderText text expected) (reads : ReadAs bodyText body) :
    ReadAs (.mark .forWord :: .mark .openParen :: text ++ .mark .inWord :: .name group ::
      .mark .closeParen :: bodyText) (.forEach expected (bareName group) body .nowhere) := by
  apply readAs_of_rule .forEach ⟨_, _, rfl, rfl⟩
  intro fuel cursor later consumed follows near
  obtain ⟨_, more, opening⟩ := consumed
  obtain ⟨middle, taken, inWord⟩ := Cursor.consumes_append.mp opening.2.2
  obtain ⟨_, moreIn, named⟩ := id inWord
  obtain ⟨_, moreName, closes⟩ := id named
  obtain ⟨_, moreClose, takenBody⟩ := id closes
  have fewer := Cursor.remaining_advance more
  have fewerOpening := Cursor.remaining_advance opening.2.1
  have fewerBinder := taken.remaining
  have fewerIn := Cursor.remaining_advance moreIn
  have fewerName := Cursor.remaining_advance moreName
  have fewerClose := Cursor.remaining_advance moreClose
  obtain ⟨binder, ranBinder, sameBinder⟩ := binder_complete spelled taken
  obtain ⟨value, ran, same⟩ := reads fuel _ later takenBody follows (by omega)
  refine ⟨.forEach binder ⟨group, middle.advance.current.span⟩ value
    (later.spanFrom cursor.current.span.start), ?_, by rw [Stmt.bare, sameBinder, same]; rfl⟩
  rw [statementBy, forEach, bind_done advance_complete, bind_done (expect_complete opening),
    bind_done ranBinder, bind_done (expectFor_complete _ inWord),
    bind_done (identifier_complete named), bind_done (expect_complete closes), bind_done ran]
  rfl

/-- The next statement of a block begins with no `else`, so each is read alone. -/
theorem statements_complete {statement : Parser Stmt} {bound : Nat}
    {body : List (List Terminal × Stmt)} (spelled : ∀ stmt ∈ body, StmtText stmt.1 stmt.2)
    (reads : ∀ stmt ∈ body, ∀ cursor later : Cursor, cursor.Consumes stmt.1 later →
      later.kind ≠ .elseWord → cursor.remaining < bound →
      ∃ value, statement cursor = .done value later ∧ value.bare = stmt.2)
    (consumed : cursor.Consumes (.mark .openCurly :: (body.map Prod.fst).flatten ++
      [.mark .closeCurly]) later) (near : cursor.remaining ≤ bound) :
    ∃ values, statements statement cursor = .done values later ∧
      values.map Stmt.bare = body.map Prod.snd := by
  obtain ⟨_, more, rest⟩ := id consumed
  obtain ⟨middle, taken, closes⟩ := Cursor.consumes_append.mp rest
  have fewer := Cursor.remaining_advance more
  have starts : ∀ stmt ∈ body, ∀ cursor later : Cursor, cursor.Consumes stmt.1 later →
      stmt.1 ≠ [] ∧ decide (cursor.kind ≠ .closeCurly) = true ∧ cursor.kind ≠ .elseWord := by
    intro stmt member cursor later taken
    obtain ⟨first, others, same, noClose, noElse, -⟩ := (spelled stmt member).first
    rw [same] at taken ⊢
    rw [taken.kind_eq]
    exact ⟨List.cons_ne_nil _ _, decide_eq_true noClose, noElse⟩
  have each : ∀ stmt ∈ body, ∀ cursor later : Cursor, cursor.Consumes stmt.1 later →
      later.kind ≠ .elseWord → cursor.remaining < bound →
      ∃ value, blockItem statement cursor = .done value later ∧ value.bare = stmt.2 := by
    intro stmt member cursor later taken noElse near
    obtain ⟨value, ran, same⟩ := reads stmt member cursor later taken noElse near
    obtain ⟨first, others, text, -, -, inside⟩ := (spelled stmt member).first
    rw [text] at taken
    rw [← taken.kind_eq] at inside
    refine ⟨value, ?_, same⟩
    rw [blockItem, bind_done (kind_eq_done.mpr ⟨rfl, rfl⟩)]
    generalize cursor.kind = kind at inside
    split
    next => exact absurd rfl inside
    next => exact ran
  have closing := mark_kind closes
  obtain ⟨values, ran, same⟩ := many_complete starts each (by rw [closing]; rfl)
    (by simp [closing]) taken (show cursor.advance.remaining < bound by omega)
  refine ⟨values, ?_, same⟩
  rw [statements, bind_done (expect_complete consumed), bind_done ran,
    bind_done (expect_complete closes), closes.2.2]
  rfl

theorem block_readAs {body : List (List Terminal × Stmt)}
    (spelled : ∀ stmt ∈ body, StmtText stmt.1 stmt.2) (reads : ∀ stmt ∈ body, ReadAs stmt.1 stmt.2) :
    ReadAs (.mark .openCurly :: (body.map Prod.fst).flatten ++ [.mark .closeCurly])
      (.block (body.map Prod.snd) .nowhere) := by
  apply readAs_of_rule .block ⟨_, _, rfl, rfl⟩
  intro fuel cursor later consumed _ near
  obtain ⟨values, ran, same⟩ := statements_complete spelled (fun stmt member cursor later taken noElse =>
    reads stmt member fuel cursor later taken fun _ => noElse) consumed near
  refine ⟨.block values (later.spanFrom cursor.position), ?_,
    by rw [Stmt.bare, allStmtsBare_eq_map, same]⟩
  rw [statementBy, block, bind_done (position_eq_done.mpr ⟨rfl, rfl⟩), bind_done ran]
  rfl

end Parser

theorem Grammar.StmtText.readAs {text : List Terminal} {stmt : Stmt} (spelled : StmtText text stmt) :
    ReadAs text stmt := by
  induction spelled with
  | declaration binder => exact declaration_readAs binder
  | initialised binder value => exact initialised_readAs binder value
  | assign value => exact assign_readAs value
  | expression value => exact expression_readAs value
  | display value => exact display_readAs value
  | ifThen guard _ ih => exact ifThen_readAs guard ih
  | ifElse guard _ whole _ ih ihOtherwise => exact ifElse_readAs guard ih whole ihOtherwise
  | whileLoop guard _ ih => exact whileLoop_readAs guard ih
  | forEach binder _ ih => exact forEach_readAs binder ih
  | returnsNothing => exact returnsNothing_readAs
  | returns value => exact returns_readAs value
  | block texts ih => exact block_readAs texts ih

theorem Parser.statement_complete {cursor later : Cursor} {text : List Terminal} {stmt : Stmt}
    (spelled : StmtText text stmt) (consumed : cursor.Consumes text later)
    (noElse : later.kind ≠ .elseWord) :
    ∃ value, statement .standard cursor = .done value later ∧ value.bare = stmt :=
  spelled.readAs cursor.fuel cursor later consumed (fun _ => noElse)
    (by simp only [Cursor.remaining, Cursor.fuel]; omega)

end Multiparty
