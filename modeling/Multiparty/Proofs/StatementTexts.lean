import Multiparty.Parsing.Progress
import Multiparty.Proofs.ExpressionTexts

/-! The reader of statements takes the texts of statements and nothing else. After a statement that ends with an
open `if` no `else` comes next, for the reader would have taken it. -/

namespace Multiparty.Parser
open Grammar Token
variable {cursor later : Cursor}

theorem type_eq_done {value : Ty} : type cursor = .done value later ↔
    cursor.kind.type? = some value ∧ cursor.advance = later := by
  simp only [type, bind_eq_done, kind_eq_done]
  constructor
  · rintro ⟨seen, _, ⟨rfl, rfl⟩, ran⟩
    cases known : cursor.kind.type? with
    | none =>
      rw [known] at ran
      cases ran
    | some value =>
      rw [known] at ran
      cases ran
      exact ⟨rfl, rfl⟩
  · rintro ⟨known, rfl⟩
    refine ⟨_, _, ⟨rfl, rfl⟩, ?_⟩
    rw [known]
    rfl

theorem isMark_of_type? {kind : Kind} {value : Ty} (known : kind.type? = some value) :
    kind.isMark ∧ kind ≠ .endOfInput := by
  cases kind <;> simp_all [Kind.type?, Kind.isMark]

theorem binder_sound (start : Cursor → Prop) : Sound start binder Binder.bare BinderText := by
  intro cursor value later closed _ ran
  simp only [binder, bind_eq_done, position_eq_done, type_eq_done, identifier_eq_done,
    spanFrom_eq_done, pure_eq_done] at ran
  obtain ⟨_, _, ⟨rfl, rfl⟩, type, _, ⟨known, rfl⟩, name, _, ⟨found, rfl, rfl⟩, _, _, ⟨rfl, rfl⟩, rfl,
    rfl⟩ := ran
  have word := closed.consumes_mark rfl (isMark_of_type? known).1 (isMark_of_type? known).2
  have named := (word.closed closed).consumes_name found
  exact ⟨_, word.trans named, .mk known⟩

theorem condition_sound (closed : cursor.Closed) {value : Expr}
    (ran : condition .standard cursor = .done value later) :
    ∃ text, cursor.Consumes (.mark .openParen :: text ++ [.mark .closeParen]) later ∧
      ExprText 1 text value.bare := by
  simp only [condition, bind_eq_done, expect_eq_done, pure_eq_done] at ran
  obtain ⟨_, _, ⟨opening, rfl, rfl⟩, _, middle, ran, _, _, ⟨closing, rfl, rfl⟩, rfl, rfl⟩ := ran
  have opened := closed.consumes_mark opening rfl nofun
  obtain ⟨text, taken, spelled⟩ := expression_sound (opened.closed closed) ran
  have ended := (taken.closed (opened.closed closed)).consumes_mark closing rfl nofun
  exact ⟨text, opened.trans (taken.trans ended), spelled⟩

/-- Where a statement was read, no `else` comes next that would belong to it. -/
def ReadsStatement (cursor later : Cursor) (stmt : Stmt) : Prop :=
  ∃ text, cursor.Consumes text later ∧ StmtText text stmt.bare ∧
    (stmt.bare.endsOpen → later.kind ≠ .elseWord)

def ReadsStatements (statement : Parser Stmt) : Prop :=
  ∀ cursor value later, cursor.Closed → statement cursor = .done value later →
    ReadsStatement cursor later value

theorem expressionStatement_sound (closed : cursor.Closed) {value : Stmt}
    (ran : expressionStatement .standard cursor = .done value later) :
    ReadsStatement cursor later value := by
  simp only [expressionStatement, bind_eq_done, position_eq_done, expect_eq_done, spanFrom_eq_done,
    pure_eq_done] at ran
  obtain ⟨_, _, ⟨rfl, rfl⟩, _, middle, ran, _, _, ⟨stop, rfl, rfl⟩, _, _, ⟨rfl, rfl⟩, rfl, rfl⟩ := ran
  obtain ⟨text, taken, spelled⟩ := expression_sound closed ran
  have ended := (taken.closed closed).consumes_mark stop rfl nofun
  exact ⟨_, taken.trans ended, .expression spelled, nofun⟩

theorem declaration_sound (closed : cursor.Closed) {value : Stmt}
    (ran : declaration .standard cursor = .done value later) : ReadsStatement cursor later value := by
  simp only [declaration, initial?, bind_eq_done, position_eq_done, kind_eq_done, expectFor_eq_done,
    spanFrom_eq_done, pure_eq_done] at ran
  obtain ⟨_, _, ⟨rfl, rfl⟩, binder, middle, ranBinder, initial, last,
    ⟨seen, _, ⟨found, rfl⟩, ran⟩, _, _, ⟨stop, rfl, rfl⟩, _, _, ⟨rfl, rfl⟩, rfl, rfl⟩ := ran
  obtain ⟨text, taken, spelled⟩ := binder_sound anywhere _ _ _ closed trivial ranBinder
  have closedMiddle := taken.closed closed
  split at ran
  next =>
    simp only [bind_eq_done, advance_eq_done, pure_eq_done] at ran
    obtain ⟨_, _, ⟨rfl, rfl⟩, value, _, ranValue, rfl, rfl⟩ := ran
    have equals := closedMiddle.consumes_mark found rfl nofun
    obtain ⟨valueText, takenValue, spelledValue⟩ :=
      expression_sound (equals.closed closedMiddle) ranValue
    have ended := (takenValue.closed (equals.closed closedMiddle)).consumes_mark stop rfl nofun
    refine ⟨_, ?_, .initialised spelled spelledValue, nofun⟩
    simpa using taken.trans (equals.trans (takenValue.trans ended))
  next =>
    cases ran
    have ended := closedMiddle.consumes_mark stop rfl nofun
    exact ⟨_, taken.trans ended, .declaration spelled, nofun⟩

theorem assignment_sound (closed : cursor.Closed) {value : Stmt}
    (ran : assignment .standard cursor = .done value later) : ReadsStatement cursor later value := by
  simp only [assignment, bind_eq_done, position_eq_done, identifier_eq_done, expect_eq_done,
    expectFor_eq_done, spanFrom_eq_done, pure_eq_done] at ran
  obtain ⟨_, _, ⟨rfl, rfl⟩, target, _, ⟨found, rfl, rfl⟩, _, _, ⟨equal, rfl, rfl⟩, _, middle, ran, _, _,
    ⟨stop, rfl, rfl⟩, _, _, ⟨rfl, rfl⟩, rfl, rfl⟩ := ran
  have name := closed.consumes_name found
  have equals := (name.closed closed).consumes_mark equal rfl nofun
  have closedValue := equals.closed (name.closed closed)
  obtain ⟨text, taken, spelled⟩ := expression_sound closedValue ran
  have ended := (taken.closed closedValue).consumes_mark stop rfl nofun
  exact ⟨_, name.trans (equals.trans (taken.trans ended)), .assign spelled, nofun⟩

theorem display_sound (closed : cursor.Closed) (found : cursor.kind = .displayWord) {value : Stmt}
    (ran : display .standard cursor = .done value later) : ReadsStatement cursor later value := by
  simp only [display, bind_eq_done, advance_eq_done, expect_eq_done, spanFrom_eq_done,
    pure_eq_done] at ran
  obtain ⟨_, _, ⟨rfl, rfl⟩, _, middle, ran, _, _, ⟨stop, rfl, rfl⟩, _, _, ⟨rfl, rfl⟩, rfl, rfl⟩ := ran
  have word := closed.consumes_mark found rfl nofun
  obtain ⟨text, taken, spelled⟩ := condition_sound (word.closed closed) ran
  have ended := (taken.closed (word.closed closed)).consumes_mark stop rfl nofun
  refine ⟨_, ?_, .display spelled, nofun⟩
  simpa using word.trans (taken.trans ended)

theorem returns_sound (closed : cursor.Closed) (found : cursor.kind = .returnWord) {value : Stmt}
    (ran : returns .standard cursor = .done value later) : ReadsStatement cursor later value := by
  simp only [returns, bind_eq_done, advance_eq_done, kind_eq_done] at ran
  obtain ⟨_, _, ⟨rfl, rfl⟩, seen, _, ⟨next, rfl⟩, ran⟩ := ran
  have word := closed.consumes_mark found rfl nofun
  split at ran
  next =>
    simp only [bind_eq_done, expect_eq_done, spanFrom_eq_done, pure_eq_done] at ran
    obtain ⟨_, _, ⟨stop, rfl, rfl⟩, _, _, ⟨rfl, rfl⟩, rfl, rfl⟩ := ran
    have ended := (word.closed closed).consumes_mark stop rfl nofun
    exact ⟨_, word.trans ended, .returnsNothing, nofun⟩
  next =>
    simp only [bind_eq_done, expect_eq_done, spanFrom_eq_done, pure_eq_done] at ran
    obtain ⟨_, _, ran, _, _, ⟨stop, rfl, rfl⟩, _, _, ⟨rfl, rfl⟩, rfl, rfl⟩ := ran
    obtain ⟨text, taken, spelled⟩ := expression_sound (word.closed closed) ran
    have ended := (taken.closed (word.closed closed)).consumes_mark stop rfl nofun
    exact ⟨_, word.trans (taken.trans ended), .returns spelled, nofun⟩

section
variable {statement : Parser Stmt} (reads : ReadsStatements statement)
include reads

/-- An `else` that comes next is taken, so the statement before it ends with no open `if`. -/
theorem conditional_sound (closed : cursor.Closed) (found : cursor.kind = .ifWord) {value : Stmt}
    (ran : conditional .standard statement cursor = .done value later) :
    ReadsStatement cursor later value := by
  simp only [conditional, bind_eq_done, advance_eq_done, kind_eq_done] at ran
  obtain ⟨_, _, ⟨rfl, rfl⟩, _, middle, ranGuard, body, last, ranBody, seen, _, ⟨next, rfl⟩, ran⟩ := ran
  have word := closed.consumes_mark found rfl nofun
  obtain ⟨text, taken, spelled⟩ := condition_sound (word.closed closed) ranGuard
  have closedMiddle := taken.closed (word.closed closed)
  obtain ⟨bodyText, takenBody, spelledBody, noElse⟩ := reads _ _ _ closedMiddle ranBody
  have closedLast := takenBody.closed closedMiddle
  split at ran
  next =>
    simp only [bind_eq_done, advance_eq_done, spanFrom_eq_done, pure_eq_done] at ran
    obtain ⟨_, _, ⟨rfl, rfl⟩, otherwise, _, ranOtherwise, _, _, ⟨rfl, rfl⟩, rfl, rfl⟩ := ran
    have elseWord := closedLast.consumes_mark next rfl nofun
    obtain ⟨otherwiseText, takenOtherwise, spelledOtherwise, openOtherwise⟩ :=
      reads _ _ _ (elseWord.closed closedLast) ranOtherwise
    have whole : body.bare.endsOpen = false := by
      cases ends : body.bare.endsOpen with
      | false => rfl
      | true => exact absurd next (noElse ends)
    refine ⟨_, ?_, .ifElse spelled spelledBody whole spelledOtherwise, openOtherwise⟩
    simpa using word.trans (taken.trans (takenBody.trans (elseWord.trans takenOtherwise)))
  next other =>
    simp only [bind_eq_done, spanFrom_eq_done, pure_eq_done] at ran
    obtain ⟨_, _, ⟨rfl, rfl⟩, rfl, rfl⟩ := ran
    refine ⟨_, ?_, .ifThen spelled spelledBody, fun _ elseNext => other (next.symm.trans elseNext)⟩
    simpa using word.trans (taken.trans takenBody)

theorem whileLoop_sound (closed : cursor.Closed) (found : cursor.kind = .whileWord) {value : Stmt}
    (ran : whileLoop .standard statement cursor = .done value later) :
    ReadsStatement cursor later value := by
  simp only [whileLoop, bind_eq_done, advance_eq_done, spanFrom_eq_done, pure_eq_done] at ran
  obtain ⟨_, _, ⟨rfl, rfl⟩, _, middle, ranGuard, body, last, ranBody, _, _, ⟨rfl, rfl⟩, rfl, rfl⟩ := ran
  have word := closed.consumes_mark found rfl nofun
  obtain ⟨text, taken, spelled⟩ := condition_sound (word.closed closed) ranGuard
  obtain ⟨bodyText, takenBody, spelledBody, ends⟩ :=
    reads _ _ _ (taken.closed (word.closed closed)) ranBody
  refine ⟨_, ?_, .whileLoop spelled spelledBody, ends⟩
  simpa using word.trans (taken.trans takenBody)

theorem forEach_sound (closed : cursor.Closed) (found : cursor.kind = .forWord) {value : Stmt}
    (ran : forEach statement cursor = .done value later) : ReadsStatement cursor later value := by
  simp only [forEach, bind_eq_done, advance_eq_done, expect_eq_done, expectFor_eq_done,
    identifier_eq_done, spanFrom_eq_done, pure_eq_done] at ran
  obtain ⟨_, _, ⟨rfl, rfl⟩, _, _, ⟨opening, rfl, rfl⟩, binder, middle, ranBinder, _, _,
    ⟨inside, rfl, rfl⟩, group, _, ⟨named, rfl, rfl⟩, _, _, ⟨closing, rfl, rfl⟩, body, last, ranBody, _, _,
    ⟨rfl, rfl⟩, rfl, rfl⟩ := ran
  have word := closed.consumes_mark found rfl nofun
  have opened := (word.closed closed).consumes_mark opening rfl nofun
  have closedBinder := opened.closed (word.closed closed)
  obtain ⟨text, taken, spelled⟩ := binder_sound anywhere _ _ _ closedBinder trivial ranBinder
  have closedMiddle := taken.closed closedBinder
  have inWord := closedMiddle.consumes_mark inside rfl nofun
  have name := (inWord.closed closedMiddle).consumes_name named
  have closedName := name.closed (inWord.closed closedMiddle)
  have ended := closedName.consumes_mark closing rfl nofun
  obtain ⟨bodyText, takenBody, spelledBody, ends⟩ :=
    reads _ _ _ (ended.closed closedName) ranBody
  refine ⟨_, ?_, .forEach spelled spelledBody, ends⟩
  simpa using word.trans (opened.trans (taken.trans (inWord.trans (name.trans (ended.trans
    takenBody)))))

theorem statements_sound (closed : cursor.Closed) {values : List Stmt}
    (ran : statements statement cursor = .done values later) :
    ∃ body : List (List Terminal × Stmt), body.map Prod.snd = values.map Stmt.bare ∧
      (∀ stmt ∈ body, StmtText stmt.1 stmt.2) ∧
      cursor.Consumes (.mark .openCurly :: (body.map Prod.fst).flatten ++ [.mark .closeCurly])
        later := by
  simp only [statements, bind_eq_done, expect_eq_done, pure_eq_done] at ran
  obtain ⟨_, _, ⟨opening, rfl, rfl⟩, items, middle, ran, _, _, ⟨closing, rfl, rfl⟩, rfl, rfl⟩ := ran
  have opened := closed.consumes_mark opening rfl nofun
  have sound : Sound (fun cursor => decide (cursor.kind ≠ .closeCurly) = true)
      (blockItem statement) Stmt.bare StmtText := by
    intro cursor value later closed _ ran
    simp only [blockItem, bind_eq_done, kind_eq_done] at ran
    obtain ⟨seen, _, ⟨_, rfl⟩, ran⟩ := ran
    split at ran
    next => cases ran
    next =>
      obtain ⟨text, taken, spelled, -⟩ := reads _ _ _ closed ran
      exact ⟨text, taken, spelled⟩
  obtain ⟨body, same, texts, taken, -⟩ := many_sound sound (opened.closed closed) ran
  have ended := (taken.closed (opened.closed closed)).consumes_mark closing rfl nofun
  exact ⟨body, same, texts, opened.trans (taken.trans ended)⟩

theorem block_sound (closed : cursor.Closed) {value : Stmt}
    (ran : block statement cursor = .done value later) : ReadsStatement cursor later value := by
  simp only [block, bind_eq_done, position_eq_done, spanFrom_eq_done, pure_eq_done] at ran
  obtain ⟨_, _, ⟨rfl, rfl⟩, items, _, ran, _, _, ⟨rfl, rfl⟩, rfl, rfl⟩ := ran
  obtain ⟨body, same, texts, taken⟩ := statements_sound reads closed ran
  refine ⟨_, taken, ?_, nofun⟩
  rw [Stmt.bare, allStmtsBare_eq_map, ← same]
  exact .block texts

theorem statementBy_sound (closed : cursor.Closed) {rule : StatementRule}
    (known : Table.standard.statement cursor.kind = some rule) {value : Stmt}
    (ran : statementBy .standard statement rule cursor = .done value later) :
    ReadsStatement cursor later value := by
  generalize found : cursor.kind = kind at known
  cases rule with
  | any => exact absurd known (Table.standard_grounded.direct kind)
  | declaration => exact declaration_sound closed ran
  | identifier =>
    simp only [statementBy, namedStatement, bind_eq_done, kindAhead_eq_done] at ran
    obtain ⟨seen, _, ⟨_, rfl⟩, ran⟩ := ran
    split at ran
    next => exact assignment_sound closed ran
    next => exact expressionStatement_sound closed ran
  | display =>
    have word : kind = .displayWord := by cases kind <;> first | rfl | cases known
    exact display_sound closed (found.trans word) ran
  | conditional =>
    have word : kind = .ifWord := by cases kind <;> first | rfl | cases known
    exact conditional_sound reads closed (found.trans word) ran
  | whileLoop =>
    have word : kind = .whileWord := by cases kind <;> first | rfl | cases known
    exact whileLoop_sound reads closed (found.trans word) ran
  | forEach =>
    have word : kind = .forWord := by cases kind <;> first | rfl | cases known
    exact forEach_sound reads closed (found.trans word) ran
  | returns =>
    have word : kind = .returnWord := by cases kind <;> first | rfl | cases known
    exact returns_sound closed (found.trans word) ran
  | block => exact block_sound reads closed ran

end

theorem statementWithin_sound (fuel : Nat) : ReadsStatements (statementWithin .standard fuel) := by
  induction fuel with
  | zero => exact fun _ _ _ _ ran => nomatch ran
  | succ fuel reads =>
    intro cursor value later closed ran
    simp only [statementWithin, bind_eq_done, kind_eq_done] at ran
    obtain ⟨seen, _, ⟨found, rfl⟩, ran⟩ := ran
    cases known : Table.standard.statement seen with
    | none =>
      rw [known] at ran
      exact expressionStatement_sound closed ran
    | some rule =>
      rw [known] at ran
      exact statementBy_sound reads closed (found ▸ known) ran

theorem statement_sound : ReadsStatements (statement .standard) :=
  fun cursor value later closed ran => statementWithin_sound cursor.fuel cursor value later closed ran

end Multiparty.Parser
