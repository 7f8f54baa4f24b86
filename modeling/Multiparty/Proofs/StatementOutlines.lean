import Multiparty.Proofs.ExpressionOutlines
import Multiparty.Proofs.StatementTexts

/-! Where statements lie in the stream that they are read from: each takes all tokens that were consumed for it. -/

namespace Multiparty.Parser
open Token
variable {file : String} {stream : List Token} {index : Nat} {cursor later : Cursor}

/-- A name with its type is two tokens. -/
theorem binder_stretches {binder : Binder} (stands : cursor.Stands file stream index)
    (ran : Parser.binder cursor = .done binder later) :
    later.Stands file stream (index + 2) ∧ binder.span.Stretches stream index (index + 2) ∧
      binder.name.span.Stretches stream (index + 1) (index + 2) := by
  simp only [Parser.binder, bind_eq_done, position_eq_done, type_eq_done, spanFrom_eq_done, pure_eq_done] at ran
  obtain ⟨_, _, ⟨rfl, rfl⟩, type, _, ⟨known, rfl⟩, name, _, ran, _, _, ⟨rfl, rfl⟩, rfl, rfl⟩ := ran
  have word := stands.onward (isMark_of_type? known).2
  obtain ⟨after, named⟩ := identifier_stretches word ran
  exact ⟨after, after.stretches_from stands.begins (by omega), named⟩

theorem binder_outlines_fit {binder : Binder} {first middle stop : Nat}
    (whole : binder.span.Stretches stream first stop) (named : binder.name.span.Stretches stream middle stop)
    (order : first ≤ middle) : Fit stream binder.outlines :=
  fit_cons.mpr ⟨Outline.fits_of_row whole (named.row.weaken order (Nat.le_refl stop)), named.fit⟩

theorem binder_passes : Parser.binder.Passes file stream anywhere Binder.span Binder.outlines := by
  intro cursor index binder later stands _ ran
  obtain ⟨after, whole, named⟩ := binder_stretches stands ran
  exact ⟨_, after, whole.row, binder_outlines_fit whole named (Nat.le_succ index)⟩

section
variable {table : Table} (apart : table.Inner)
include apart

theorem condition_passes : (condition table).Passes file stream anywhere Expr.span Expr.outlines := by
  intro cursor index value later stands _ ran
  simp only [condition, bind_eq_done, expect_eq_done, pure_eq_done] at ran
  obtain ⟨_, _, ⟨opening, rfl, rfl⟩, _, _, ran, _, _, ⟨closing, rfl, rfl⟩, rfl, rfl⟩ := ran
  have opened := stands.taken opening rfl
  obtain ⟨next, there, row, fit⟩ := expression_passes apart _ _ _ _ _ opened trivial ran
  exact ⟨next + 1, there.taken closing rfl, row.weaken (Nat.le_succ index) (Nat.le_succ next), fit⟩

theorem expressionStatement_passes :
    (expressionStatement table).Passes file stream anywhere Stmt.span Stmt.outlines := by
  intro cursor index stmt later stands _ ran
  simp only [expressionStatement, bind_eq_done, position_eq_done, expect_eq_done, spanFrom_eq_done,
    pure_eq_done] at ran
  obtain ⟨_, _, ⟨rfl, rfl⟩, _, _, ran, _, _, ⟨ending, rfl, rfl⟩, _, _, ⟨rfl, rfl⟩, rfl, rfl⟩ := ran
  obtain ⟨next, there, row, fit⟩ := expression_passes apart _ _ _ _ _ stands trivial ran
  have within := row.weaken (Nat.le_refl index) (Nat.le_succ next)
  exact stands.encloses (there.taken ending rfl) (Nat.lt_succ_of_le row.le)
    (List.forall_mem_singleton.mpr within) fit

/-- An initial value is read behind the declared name, with which the assignment begins. -/
theorem initial?_passes {name : Identifier} {first : Nat} {initial : Option Assignment}
    (named : name.span.Stretches stream first index) (stands : cursor.Stands file stream index)
    (ran : initial? table name cursor = .done initial later) :
    later.Passed file stream first (initial.toList.map Assignment.span)
      (initial.toList.flatMap Assignment.outlines) := by
  simp only [initial?, bind_eq_done, kind_eq_done] at ran
  obtain ⟨seen, _, ⟨found, rfl⟩, ran⟩ := ran
  split at ran
  next =>
    simp only [bind_eq_done, advance_eq_done, pure_eq_done] at ran
    obtain ⟨_, _, ⟨rfl, rfl⟩, value, _, ran, rfl, rfl⟩ := ran
    have equals := stands.taken found rfl
    obtain ⟨next, there, row, fit⟩ := expression_passes apart _ _ _ _ _ equals trivial ran
    obtain ⟨second, stop, after, stretches, before⟩ := row.exists_stretches List.mem_cons_self
    have proper := named.proper
    have whole := named.join stretches (by omega)
    have sides : Row stream stop first [name.span, value.span] :=
      .cons (Nat.le_refl first) named (stretches.row.weaken (by omega) (Nat.le_refl stop))
    refine ⟨next, there, whole.row.weaken (Nat.le_refl first) before, ?_⟩
    simpa [Assignment.outlines] using
      ⟨Outline.fits_of_row whole sides, Outline.fits_of_stretches named, fit⟩
  next =>
    cases ran
    exact ⟨index, stands, .nil (Nat.le_of_lt named.proper), fit_nil⟩

theorem declaration_passes : (declaration table).Passes file stream anywhere Stmt.span Stmt.outlines := by
  intro cursor index stmt later stands _ ran
  simp only [declaration, bind_eq_done, position_eq_done, expectFor_eq_done, spanFrom_eq_done, pure_eq_done] at ran
  obtain ⟨_, _, ⟨rfl, rfl⟩, binder, _, ranBinder, initial, _, ran, _, _, ⟨ending, rfl, rfl⟩, _, _, ⟨rfl, rfl⟩, rfl,
    rfl⟩ := ran
  obtain ⟨bound, whole, named⟩ := binder_stretches stands ranBinder
  obtain ⟨next, there, row, fit⟩ := initial?_passes apart named bound ran
  have further := there.taken ending rfl
  have order := row.le
  refine stands.encloses further (by omega) ?_ (fit_append.mpr ⟨?_, fit⟩)
  · rw [List.forall_mem_cons, List.forall_mem_singleton]
    exact ⟨whole.row.weaken (Nat.le_refl index) (by omega), row.weaken (Nat.le_succ index) (Nat.le_succ next)⟩
  · exact binder_outlines_fit whole named (Nat.le_succ index)

theorem assignment_passes : (assignment table).Passes file stream anywhere Stmt.span Stmt.outlines := by
  intro cursor index stmt later stands _ ran
  simp only [assignment, bind_eq_done, position_eq_done, expect_eq_done, expectFor_eq_done, spanFrom_eq_done,
    pure_eq_done] at ran
  obtain ⟨_, _, ⟨rfl, rfl⟩, target, _, ranTarget, _, _, ⟨equals, rfl, rfl⟩, value, _, ran, _, _, ⟨ending, rfl, rfl⟩,
    _, _, ⟨rfl, rfl⟩, rfl, rfl⟩ := ran
  obtain ⟨after, named⟩ := identifier_stretches stands ranTarget
  obtain ⟨next, there, row, fit⟩ := expression_passes apart _ _ _ _ _ (after.taken equals rfl) trivial ran
  have further := there.taken ending rfl
  have order := row.le
  have whole := further.stretches_from stands.begins (by omega)
  have sides : Row stream (next + 1) index [target.span, value.span] :=
    .cons (Nat.le_refl index) named (row.weaken (Nat.le_succ _) (Nat.le_succ next))
  refine stands.encloses further (by omega) (List.forall_mem_singleton.mpr whole.row) ?_
  rw [Assignment.outlines, fit_cons, fit_cons]
  exact ⟨Outline.fits_of_row whole sides, Outline.fits_of_stretches named, fit⟩

theorem namedStatement_passes : (namedStatement table).Passes file stream anywhere Stmt.span Stmt.outlines := by
  intro cursor index stmt later stands _ ran
  simp only [namedStatement, bind_eq_done, kindAhead_eq_done] at ran
  obtain ⟨seen, _, ⟨_, rfl⟩, ran⟩ := ran
  split at ran
  next => exact assignment_passes apart _ _ _ _ stands trivial ran
  next => exact expressionStatement_passes apart _ _ _ _ stands trivial ran

theorem display_passes : (display table).Passes file stream inside Stmt.span Stmt.outlines := by
  intro cursor index stmt later stands within ran
  simp only [display, bind_eq_done, advance_eq_done, expect_eq_done, spanFrom_eq_done, pure_eq_done] at ran
  obtain ⟨_, _, ⟨rfl, rfl⟩, _, _, ran, _, _, ⟨ending, rfl, rfl⟩, _, _, ⟨rfl, rfl⟩, rfl, rfl⟩ := ran
  have word := stands.onward within
  obtain ⟨next, there, row, fit⟩ := condition_passes apart _ _ _ _ word trivial ran
  have order := row.le
  refine stands.encloses (there.taken ending rfl) (by omega) (List.forall_mem_singleton.mpr ?_) fit
  exact row.weaken (Nat.le_succ index) (Nat.le_succ next)

theorem returns_passes : (returns table).Passes file stream inside Stmt.span Stmt.outlines := by
  intro cursor index stmt later stands within ran
  simp only [returns, bind_eq_done, advance_eq_done, kind_eq_done] at ran
  obtain ⟨_, _, ⟨rfl, rfl⟩, seen, _, ⟨_, rfl⟩, ran⟩ := ran
  have word := stands.onward within
  split at ran
  next =>
    simp only [bind_eq_done, expect_eq_done, spanFrom_eq_done, pure_eq_done] at ran
    obtain ⟨_, _, ⟨ending, rfl, rfl⟩, _, _, ⟨rfl, rfl⟩, rfl, rfl⟩ := ran
    have nothing : Row stream (index + 2) index [] := .nil (by omega)
    exact stands.encloses (word.taken ending rfl) (by omega) (List.forall_mem_singleton.mpr nothing) fit_nil
  next =>
    simp only [bind_eq_done, expect_eq_done, spanFrom_eq_done, pure_eq_done] at ran
    obtain ⟨value, _, ran, _, _, ⟨ending, rfl, rfl⟩, _, _, ⟨rfl, rfl⟩, rfl, rfl⟩ := ran
    obtain ⟨next, there, row, fit⟩ := expression_passes apart _ _ _ _ _ word trivial ran
    have order := row.le
    have returned : Row stream (next + 1) index [value.span] := row.weaken (Nat.le_succ index) (Nat.le_succ next)
    refine stands.encloses (there.taken ending rfl) (by omega) (List.forall_mem_singleton.mpr returned) ?_
    rwa [Option.toList_some, List.flatMap_singleton]

end

section
variable {statement : Parser Stmt} (passes : statement.Passes file stream anywhere Stmt.span Stmt.outlines)
include passes

theorem conditional_passes {table : Table} (apart : table.Inner) :
    (conditional table statement).Passes file stream inside Stmt.span Stmt.outlines := by
  intro cursor index stmt later stands within ran
  simp only [conditional, bind_eq_done, advance_eq_done, kind_eq_done] at ran
  obtain ⟨_, _, ⟨rfl, rfl⟩, guard, _, ranGuard, body, _, ranBody, seen, _, ⟨found, rfl⟩, ran⟩ := ran
  have word := stands.onward within
  obtain ⟨middle, between, guardRow, guardFit⟩ := condition_passes apart _ _ _ _ word trivial ranGuard
  obtain ⟨next, there, bodyRow, bodyFit⟩ := passes _ _ _ _ between trivial ranBody
  have parts : Row stream next index [guard.span, body.span] :=
    (guardRow.weaken (Nat.le_succ index) (Nat.le_refl middle)).append bodyRow
  have order : index < next := Nat.le_trans guardRow.le bodyRow.le
  split at ran
  next =>
    simp only [bind_eq_done, advance_eq_done, spanFrom_eq_done, pure_eq_done] at ran
    obtain ⟨_, _, ⟨rfl, rfl⟩, otherwise, _, ranOtherwise, _, _, ⟨rfl, rfl⟩, rfl, rfl⟩ := ran
    have elseWord := there.taken found rfl
    obtain ⟨last, further, otherwiseRow, otherwiseFit⟩ := passes _ _ _ _ elseWord trivial ranOtherwise
    have all : Row stream last index [guard.span, body.span, otherwise.span] :=
      parts.append (otherwiseRow.weaken (Nat.le_succ next) (Nat.le_refl last))
    have longer := otherwiseRow.le
    refine stands.encloses further (by omega) (List.forall_mem_singleton.mpr all) ?_
    exact fit_append.mpr ⟨guardFit, fit_append.mpr ⟨bodyFit, otherwiseFit⟩⟩
  next =>
    simp only [bind_eq_done, spanFrom_eq_done, pure_eq_done] at ran
    obtain ⟨_, _, ⟨rfl, rfl⟩, rfl, rfl⟩ := ran
    exact stands.encloses there order (List.forall_mem_singleton.mpr parts) (fit_append.mpr ⟨guardFit, bodyFit⟩)

theorem whileLoop_passes {table : Table} (apart : table.Inner) :
    (whileLoop table statement).Passes file stream inside Stmt.span Stmt.outlines := by
  intro cursor index stmt later stands within ran
  simp only [whileLoop, bind_eq_done, advance_eq_done, spanFrom_eq_done, pure_eq_done] at ran
  obtain ⟨_, _, ⟨rfl, rfl⟩, guard, _, ranGuard, body, _, ranBody, _, _, ⟨rfl, rfl⟩, rfl, rfl⟩ := ran
  have word := stands.onward within
  obtain ⟨middle, between, guardRow, guardFit⟩ := condition_passes apart _ _ _ _ word trivial ranGuard
  obtain ⟨next, there, bodyRow, bodyFit⟩ := passes _ _ _ _ between trivial ranBody
  have parts : Row stream next index [guard.span, body.span] :=
    (guardRow.weaken (Nat.le_succ index) (Nat.le_refl middle)).append bodyRow
  have order : index < next := Nat.le_trans guardRow.le bodyRow.le
  exact stands.encloses there order (List.forall_mem_singleton.mpr parts) (fit_append.mpr ⟨guardFit, bodyFit⟩)

theorem forEach_passes : (forEach statement).Passes file stream inside Stmt.span Stmt.outlines := by
  intro cursor index stmt later stands within ran
  simp only [forEach, bind_eq_done, advance_eq_done, expect_eq_done, expectFor_eq_done, spanFrom_eq_done,
    pure_eq_done] at ran
  obtain ⟨_, _, ⟨rfl, rfl⟩, _, _, ⟨opening, rfl, rfl⟩, binder, _, ranBinder, _, _, ⟨between, rfl, rfl⟩, group, _,
    ranGroup, _, _, ⟨closing, rfl, rfl⟩, body, _, ranBody, _, _, ⟨rfl, rfl⟩, rfl, rfl⟩ := ran
  have opened := (stands.onward within).taken opening rfl
  obtain ⟨bound, whole, named⟩ := binder_stretches opened ranBinder
  obtain ⟨after, grouped⟩ := identifier_stretches (bound.taken between rfl) ranGroup
  obtain ⟨next, there, row, fit⟩ := passes _ _ _ _ (after.taken closing rfl) trivial ranBody
  have order := row.le
  have parts : Row stream next index [binder.span, group.span, body.span] :=
    .cons (by omega) whole (.cons (by omega) grouped (row.weaken (by omega) (Nat.le_refl next)))
  refine stands.encloses there (by omega) (List.forall_mem_singleton.mpr parts) ?_
  rw [fit_append, fit_cons]
  exact ⟨binder_outlines_fit whole named (by omega), Outline.fits_of_stretches grouped, fit⟩

theorem blockItem_passes {start : Cursor → Prop} :
    (blockItem statement).Passes file stream start Stmt.span Stmt.outlines := by
  intro cursor index stmt later stands _ ran
  simp only [blockItem, bind_eq_done, kind_eq_done] at ran
  obtain ⟨seen, _, ⟨_, rfl⟩, ran⟩ := ran
  split at ran
  next => cases ran
  next => exact passes _ _ _ _ stands trivial ran

/-- Statements in braces lie behind the opening one. -/
theorem statements_passes {values : List Stmt} (stands : cursor.Stands file stream index)
    (ran : statements statement cursor = .done values later) :
    later.Passed file stream (index + 1) (values.map Stmt.span) (allStmtOutlines values) := by
  simp only [statements, bind_eq_done, expect_eq_done, pure_eq_done] at ran
  obtain ⟨_, _, ⟨opening, rfl, rfl⟩, _, _, ran, _, _, ⟨closing, rfl, rfl⟩, rfl, rfl⟩ := ran
  have opened := stands.taken opening rfl
  obtain ⟨next, there, row, fit⟩ := many_passes (blockItem_passes passes) opened ran
  rw [allStmtOutlines_eq]
  exact ⟨next + 1, there.taken closing rfl, row.weaken (Nat.le_refl _) (Nat.le_succ next), fit⟩

theorem block_passes : (block statement).Passes file stream anywhere Stmt.span Stmt.outlines := by
  intro cursor index stmt later stands _ ran
  simp only [block, bind_eq_done, position_eq_done, spanFrom_eq_done, pure_eq_done] at ran
  obtain ⟨_, _, ⟨rfl, rfl⟩, _, _, ran, _, _, ⟨rfl, rfl⟩, rfl, rfl⟩ := ran
  obtain ⟨next, there, row, fit⟩ := statements_passes passes stands ran
  have body := row.weaken (Nat.le_succ index) (Nat.le_refl next)
  exact stands.encloses there row.le (List.forall_mem_singleton.mpr body) fit

theorem statementBy_passes {table : Table} (apart : table.Inner) (rule : StatementRule) :
    (statementBy table statement rule).Passes file stream inside Stmt.span Stmt.outlines := by
  intro cursor index stmt later stands within ran
  cases rule with
  | any => exact passes _ _ _ _ stands trivial ran
  | declaration => exact declaration_passes apart _ _ _ _ stands trivial ran
  | identifier => exact namedStatement_passes apart _ _ _ _ stands trivial ran
  | display => exact display_passes apart _ _ _ _ stands within ran
  | conditional => exact conditional_passes passes apart _ _ _ _ stands within ran
  | whileLoop => exact whileLoop_passes passes apart _ _ _ _ stands within ran
  | forEach => exact forEach_passes passes _ _ _ _ stands within ran
  | returns => exact returns_passes apart _ _ _ _ stands within ran
  | block => exact block_passes passes _ _ _ _ stands trivial ran

end

theorem statementWithin_passes {table : Table} (apart : table.Inner) (fuel : Nat) :
    (statementWithin table fuel).Passes file stream anywhere Stmt.span Stmt.outlines := by
  induction fuel with
  | zero => exact fun _ _ _ _ _ _ ran => nomatch ran
  | succ fuel passes =>
    intro cursor index stmt later stands _ ran
    simp only [statementWithin, bind_eq_done, kind_eq_done] at ran
    obtain ⟨seen, _, ⟨rfl, rfl⟩, ran⟩ := ran
    cases known : table.statement cursor.kind with
    | none =>
      rw [known] at ran
      exact expressionStatement_passes apart _ _ _ _ stands trivial ran
    | some rule =>
      rw [known] at ran
      exact statementBy_passes passes apart rule _ _ _ _ stands (apart.statement known).1 ran

theorem statement_passes {table : Table} (apart : table.Inner) :
    (Parser.statement table).Passes file stream anywhere Stmt.span Stmt.outlines :=
  fun _ _ _ _ stands _ ran => statementWithin_passes apart _ _ _ _ _ stands trivial ran

end Multiparty.Parser
