import Multiparty.Proofs.Outlines
import Multiparty.Proofs.TokenPlaces

/-! Where expressions lie in the stream that they are read from. What is read one after the other lies in a row.
Parentheses are part of no span, so that an expression may start later and end earlier than what was consumed. -/

namespace Multiparty
open Token

namespace Cursor
variable {file : String} {stream : List Token} {index next first : Nat} {cursor later : Cursor}

theorem Stands.onward (stands : cursor.Stands file stream index) (within : Parser.inside cursor) :
    cursor.advance.Stands file stream (index + 1) :=
  stands.next (stands.closed.ahead_ne_nil within)

/-- A token whose kind is known is none that ends the input. -/
theorem inside_of_kind {kind : Kind} (found : cursor.kind = kind) (more : (kind == .endOfInput) = false) :
    Parser.inside cursor := by
  rw [Parser.inside, found]
  exact ne_of_beq_false more

theorem Stands.taken {kind : Kind} (stands : cursor.Stands file stream index) (found : cursor.kind = kind)
    (more : (kind == .endOfInput) = false) : cursor.advance.Stands file stream (index + 1) :=
  stands.onward (inside_of_kind found more)

theorem Stands.lt_length (stands : cursor.Stands file stream index) : index < stream.length := by
  have remaining := stands.remaining
  omega

theorem Stands.stretches (before : cursor.Stands file stream index)
    (after : cursor.advance.Stands file stream (index + 1)) :
    cursor.current.span.Stretches stream index (index + 1) where
  proper := Nat.lt_succ_self index
  inside := after.lt_length
  begins := ⟨cursor.current, before.current, rfl⟩
  ends := ⟨cursor.current, before.current, rfl⟩

theorem Stands.begins (stands : cursor.Stands file stream index) :
    ∃ token, stream[index]? = some token ∧ token.span.start = cursor.position :=
  ⟨cursor.current, stands.current, rfl⟩

/-- What begins with the token `first` ends with the last one that was consumed. -/
theorem Stands.stretches_from {start : Position} (after : later.Stands file stream next)
    (begun : ∃ token, stream[first]? = some token ∧ token.span.start = start) (order : first < next) :
    (later.spanFrom start).Stretches stream first next where
  proper := order
  inside := after.lt_length
  begins := begun
  ends := by
    have short : next - 1 < stream.length := by
      have inside := after.lt_length
      omega
    refine ⟨stream[next - 1], List.getElem?_eq_getElem short, ?_⟩
    rw [spanFrom, after.behind, endOf, List.getLast?_take, if_neg (by omega), List.getElem?_eq_getElem short]
    rfl

/-- The cursor has come past spans that lie in a row from the token `index` on, and the outlines fit. -/
def Passed (file : String) (stream : List Token) (index : Nat) (spans : List Span) (outlines : List Outline)
    (cursor : Cursor) : Prop :=
  ∃ next, cursor.Stands file stream next ∧ Row stream next index spans ∧ Fit stream outlines

/-- A node that takes all that was consumed from the cursor on. -/
theorem Stands.encloses {rows : List (List Span)} {outlines : List Outline} (before : cursor.Stands file stream index)
    (after : later.Stands file stream next) (order : index < next) (within : ∀ row ∈ rows, Row stream next index row)
    (fit : Fit stream outlines) :
    later.Passed file stream index [later.spanFrom cursor.position]
      (⟨later.spanFrom cursor.position, rows⟩ :: outlines) := by
  have whole := after.stretches_from before.begins order
  exact ⟨next, after, whole.row, fit_cons.mpr ⟨⟨index, next, whole, within⟩, fit⟩⟩

end Cursor

namespace Parser
variable {α β : Type} {file : String} {stream : List Token} {index : Nat} {cursor later : Cursor}

/-- What is read from a cursor where `start` holds has a span and outlines that the cursor has come past then. -/
def Passes (file : String) (stream : List Token) (start : Cursor → Prop) (span : α → Span)
    (outlines : α → List Outline) (parser : Parser α) : Prop :=
  ∀ cursor index value later, cursor.Stands file stream index → start cursor →
    parser cursor = .done value later → later.Passed file stream index [span value] (outlines value)

section
variable {continues : Cursor → Bool} {item : Parser α} {span : α → Span} {outlines : α → List Outline}
  {values : List α}

theorem manyWithin_passes (passes : item.Passes file stream (continues · = true) span outlines) {fuel : Nat}
    (stands : cursor.Stands file stream index) (ran : manyWithin continues item fuel cursor = .done values later) :
    later.Passed file stream index (values.map span) (values.flatMap outlines) := by
  induction fuel generalizing cursor index values with
  | zero => cases ran
  | succ fuel ih =>
    rw [manyWithin_succ] at ran
    split at ran
    next more =>
      simp only [bind_eq_done, pure_eq_done] at ran
      obtain ⟨first, middle, ranFirst, rest, last, ranRest, rfl, rfl⟩ := ran
      obtain ⟨between, there, one, fit⟩ := passes _ _ _ _ stands more ranFirst
      obtain ⟨next, further, row, others⟩ := ih there ranRest
      exact ⟨next, further, one.append row, fit_append.mpr ⟨fit, others⟩⟩
    next =>
      cases ran
      exact ⟨index, stands, .nil (Nat.le_refl index), fit_nil⟩

theorem many_passes (passes : item.Passes file stream (continues · = true) span outlines)
    (stands : cursor.Stands file stream index) (ran : many continues item cursor = .done values later) :
    later.Passed file stream index (values.map span) (values.flatMap outlines) :=
  manyWithin_passes passes stands ran

theorem separated_passes {reason : String} {start : Cursor → Prop}
    (passes : item.Passes file stream anywhere span outlines) :
    (separated item reason).Passes file stream start span outlines := by
  intro cursor index value later stands _ ran
  simp only [separated, bind_eq_done, pure_eq_done] at ran
  obtain ⟨value, middle, ran, _, after, ranSeparator, rfl, rfl⟩ := ran
  obtain ⟨next, there, row, fit⟩ := passes _ _ _ _ stands trivial ran
  rcases separator_eq_done.mp ranSeparator with ⟨_, rfl⟩ | ⟨comma, rfl⟩
  · exact ⟨next, there, row, fit⟩
  · exact ⟨next + 1, there.taken comma rfl, row.weaken (Nat.le_refl index) (Nat.le_succ next), fit⟩

theorem commaSeparated_passes {reason : String} (passes : item.Passes file stream anywhere span outlines)
    (stands : cursor.Stands file stream index) (ran : commaSeparated item reason cursor = .done values later) :
    later.Passed file stream index (values.map span) (values.flatMap outlines) := by
  simp only [commaSeparated_eq, bind_eq_done, expect_eq_done, pure_eq_done] at ran
  obtain ⟨_, _, ⟨opening, rfl, rfl⟩, _, _, ran, _, _, ⟨closing, rfl, rfl⟩, rfl, rfl⟩ := ran
  have opened := stands.taken opening rfl
  obtain ⟨next, there, row, fit⟩ := many_passes (separated_passes passes) opened ran
  exact ⟨next + 1, there.taken closing rfl, row.weaken (Nat.le_succ index) (Nat.le_succ next), fit⟩

end

/-- A name is one token. -/
theorem identifier_stretches {name : Identifier} (stands : cursor.Stands file stream index)
    (ran : identifier cursor = .done name later) :
    later.Stands file stream (index + 1) ∧ name.span.Stretches stream index (index + 1) := by
  obtain ⟨found, rfl, rfl⟩ := identifier_eq_done.mp ran
  have after := stands.taken found rfl
  exact ⟨after, stands.stretches after⟩

theorem literal_passes : literal.Passes file stream inside Expr.span Expr.outlines := by
  intro cursor index value later stands within ran
  have after := stands.onward within
  have stretches := stands.stretches after
  have fit := stretches.fit
  simp only [literal, bind_eq_done, advance_eq_done] at ran
  obtain ⟨token, _, ⟨current, rfl⟩, ran⟩ := ran
  rw [current] at stretches fit
  generalize token.kind = kind at ran
  split at ran
  next =>
    cases digits : Text.integer? token.value with
    | none =>
      rw [digits] at ran
      cases ran
    | some number =>
      rw [digits] at ran
      cases ran
      exact ⟨_, after, stretches.row, fit⟩
  next =>
    cases ran
    exact ⟨_, after, stretches.row, fit⟩
  next =>
    cases ran
    exact ⟨_, after, stretches.row, fit⟩
  next =>
    cases ran
    exact ⟨_, after, stretches.row, fit⟩
  next => cases ran

theorem readInt_passes : readInt.Passes file stream inside Expr.span Expr.outlines := by
  intro cursor index value later stands within ran
  simp only [readInt, bind_eq_done, advance_eq_done, expect_eq_done, expectFor_eq_done, spanFrom_eq_done,
    pure_eq_done] at ran
  obtain ⟨_, _, ⟨rfl, rfl⟩, _, _, ⟨opening, rfl, rfl⟩, _, _, ⟨closing, rfl, rfl⟩, _, _, ⟨rfl, rfl⟩, rfl, rfl⟩ := ran
  have word := stands.onward within
  have opened := word.taken opening rfl
  have closed := opened.taken closing rfl
  exact stands.encloses closed (by omega) (List.forall_mem_nil _) fit_nil

theorem furtherName_passes : (do
    let _ ← advance
    identifier : Parser Identifier).Passes file stream (fun cursor => decide (cursor.kind = .comma) = true)
      Identifier.span fun name => [name.outline] := by
  intro cursor index name later stands comma ran
  simp only [bind_eq_done, advance_eq_done] at ran
  obtain ⟨_, _, ⟨rfl, rfl⟩, ran⟩ := ran
  have after := stands.taken (of_decide_eq_true comma) rfl
  obtain ⟨there, named⟩ := identifier_stretches after ran
  exact ⟨_, there, named.row.weaken (Nat.le_succ index) (Nat.le_refl _), named.fit⟩

theorem names_passes {names : List Identifier} (stands : cursor.Stands file stream index)
    (ran : Parser.names cursor = .done names later) :
    later.Passed file stream index (names.map Identifier.span) (names.map Identifier.outline) := by
  simp only [Parser.names, bind_eq_done, pure_eq_done] at ran
  obtain ⟨first, _, ranFirst, rest, _, ran, rfl, rfl⟩ := ran
  obtain ⟨there, named⟩ := identifier_stretches stands ranFirst
  obtain ⟨next, last, row, fit⟩ := many_passes furtherName_passes there ran
  refine ⟨next, last, .cons (Nat.le_refl index) named row, ?_⟩
  rw [List.map_cons, fit_cons, List.map_eq_flatMap]
  exact ⟨Outline.fits_of_stretches named, fit⟩

section
variable {expression : Power → Parser Expr}
  (passes : ∀ power, (expression power).Passes file stream anywhere Expr.span Expr.outlines)
include passes

theorem negation_passes : (negation expression).Passes file stream inside Expr.span Expr.outlines := by
  intro cursor index value later stands within ran
  simp only [negation, bind_eq_done, advance_eq_done, pure_eq_done] at ran
  obtain ⟨_, _, ⟨rfl, rfl⟩, operand, _, ran, rfl, rfl⟩ := ran
  have word := stands.onward within
  obtain ⟨next, there, row, fit⟩ := passes _ _ _ _ _ word trivial ran
  obtain ⟨first, stop, after, stretches, before⟩ := row.exists_stretches List.mem_cons_self
  have whole : Span.Stretches stream index stop ⟨cursor.current.span.start, operand.span.stop⟩ :=
    (stands.stretches word).join stretches (by omega)
  refine ⟨next, there, whole.row.weaken (Nat.le_refl index) before, ?_⟩
  rw [Expr.outlines, fit_cons]
  exact ⟨Outline.fits_of_row whole (stretches.row.weaken (by omega) (Nat.le_refl stop)), fit⟩

theorem grouping_passes : (grouping expression).Passes file stream inside Expr.span Expr.outlines := by
  intro cursor index value later stands within ran
  simp only [grouping, bind_eq_done, advance_eq_done, expect_eq_done, pure_eq_done] at ran
  obtain ⟨_, _, ⟨rfl, rfl⟩, _, _, ran, _, _, ⟨closing, rfl, rfl⟩, rfl, rfl⟩ := ran
  obtain ⟨next, there, row, fit⟩ := passes _ _ _ _ _ (stands.onward within) trivial ran
  exact ⟨next + 1, there.taken closing rfl, row.weaken (Nat.le_succ index) (Nat.le_succ next), fit⟩

theorem reveal_passes : (reveal expression).Passes file stream inside Expr.span Expr.outlines := by
  intro cursor index value later stands within ran
  simp only [reveal, bind_eq_done, advance_eq_done, expect_eq_done, expectFor_eq_done, spanFrom_eq_done,
    pure_eq_done] at ran
  obtain ⟨_, _, ⟨rfl, rfl⟩, _, _, ⟨opening, rfl, rfl⟩, body, _, ran, _, _, ⟨bar, rfl, rfl⟩, opened, _, ranNames,
    _, _, ⟨closing, rfl, rfl⟩, _, _, ⟨rfl, rfl⟩, rfl, rfl⟩ := ran
  have word := stands.onward within
  obtain ⟨middle, there, bodyRow, bodyFit⟩ := passes _ _ _ _ _ (word.taken opening rfl) trivial ran
  obtain ⟨last, further, names, namesFit⟩ := names_passes (there.taken bar rfl) ranNames
  have after := further.taken closing rfl
  have inner : Row stream last index (body.span :: opened.map Identifier.span) :=
    (bodyRow.weaken (by omega) (Nat.le_succ middle)).append names
  have within := inner.weaken (Nat.le_refl index) (Nat.le_succ last)
  refine stands.encloses after (Nat.lt_succ_of_le inner.le) (List.forall_mem_singleton.mpr within) ?_
  exact fit_append.mpr ⟨bodyFit, namesFit⟩

theorem arguments_passes {values : List Expr} (stands : cursor.Stands file stream index)
    (ran : arguments expression cursor = .done values later) :
    later.Passed file stream index (values.map Expr.span) (allExprOutlines values) := by
  rw [allExprOutlines_eq]
  exact commaSeparated_passes (passes .default) stands ran

/-- The rest of a call to a member of `target`. The tokens up to `index` are the two names and what separates them. -/
theorem memberCall_passes {target name : Identifier} {first second : Nat}
    (targeted : target.span.Stretches stream first (first + 1)) (named : name.span.Stretches stream second (second + 1))
    (order : first < second) (stands : cursor.Stands file stream index) (beyond : second < index) {value : Expr}
    (ran : memberCall expression target name cursor = .done value later) :
    later.Passed file stream first [value.span] value.outlines := by
  simp only [memberCall, bind_eq_done, spanFrom_eq_done] at ran
  obtain ⟨values, after, ranValues, _, _, ⟨rfl, rfl⟩, _, _, ⟨rfl, rfl⟩, ran⟩ := ran
  obtain ⟨next, there, row, fit⟩ := arguments_passes passes stands ranValues
  have further := row.le
  have whole := there.stretches_from targeted.begins (by omega)
  have call := there.stretches_from named.begins (by omega)
  -- an operation on a tunnel is one call as a whole, and its name is not in the tree
  have operation {arguments : List Span} (listed : Row stream next index arguments) :
      Fit stream (⟨after.spanFrom target.span.start, [[after.spanFrom target.span.start]]⟩ ::
        target.callOutlines arguments (after.spanFrom target.span.start)) :=
    fit_cons.mpr ⟨Outline.fits_of_row whole whole.row,
      Identifier.callOutlines_fit targeted whole (listed.weaken (by omega) (Nat.le_refl next))⟩
  split at ran
  next =>
    generalize name.name = word at ran
    split at ran
    next =>
      cases ran
      have taken := operation row
      simp only [allExprOutlines, List.append_nil] at fit
      exact ⟨next, there, whole.row, fit_append.mpr ⟨taken, fit⟩⟩
    next =>
      cases ran
      exact ⟨next, there, whole.row, operation row⟩
    next =>
      cases ran
      exact ⟨next, there, whole.row, operation row⟩
    next => cases ran
  next =>
    have listed := row.weaken beyond (Nat.le_refl next)
    have called := Identifier.targetedOutlines_fit targeted order named whole call listed
    cases ran
    exact ⟨next, there, whole.row, fit_append.mpr ⟨called, fit⟩⟩

theorem remoteOperation_passes {target tunnel : Identifier} {first second : Nat}
    (targeted : target.span.Stretches stream first (first + 1))
    (named : tunnel.span.Stretches stream second (second + 1)) (order : first < second)
    (stands : cursor.Stands file stream index) (beyond : second < index) {value : Expr}
    (ran : remoteOperation expression target tunnel cursor = .done value later) :
    later.Passed file stream first [value.span] value.outlines := by
  simp only [remoteOperation, bind_eq_done, spanFrom_eq_done] at ran
  obtain ⟨operation, _, ranOperation, values, after, ranValues, _, _, ⟨rfl, rfl⟩, _, _, ⟨rfl, rfl⟩, ran⟩ := ran
  obtain ⟨between, -⟩ := identifier_stretches stands ranOperation
  obtain ⟨next, there, row, fit⟩ := arguments_passes passes between ranValues
  have further := row.le
  have whole := there.stretches_from targeted.begins (by omega)
  have call := there.stretches_from named.begins (by omega)
  have calls {arguments : List Span} (listed : Row stream next (index + 1) arguments) :=
    Identifier.targetedOutlines_fit targeted order named whole call (listed.weaken (by omega) (Nat.le_refl next))
  generalize operation.name = word at ran
  split at ran
  next =>
    cases ran
    have taken := calls row
    simp only [allExprOutlines, List.append_nil] at fit
    exact ⟨next, there, whole.row, fit_append.mpr ⟨taken, fit⟩⟩
  next =>
    cases ran
    exact ⟨next, there, whole.row, calls row⟩
  next =>
    cases ran
    exact ⟨next, there, whole.row, calls row⟩
  next => cases ran

theorem named_passes {start : Cursor → Prop} :
    (named expression).Passes file stream start Expr.span Expr.outlines := by
  intro cursor index value later stands _ ran
  simp only [named, bind_eq_done, kind_eq_done] at ran
  obtain ⟨first, _, ranFirst, seen, _, ⟨next, rfl⟩, ran⟩ := ran
  obtain ⟨after, stretches⟩ := identifier_stretches stands ranFirst
  split at ran
  next =>
    simp only [bind_eq_done, spanFrom_eq_done, pure_eq_done] at ran
    obtain ⟨values, _, ranValues, _, _, ⟨rfl, rfl⟩, rfl, rfl⟩ := ran
    obtain ⟨last, there, row, fit⟩ := arguments_passes passes after ranValues
    have whole := there.stretches_from stretches.begins row.le
    refine ⟨last, there, whole.row, ?_⟩
    rw [Expr.outlines, fit_cons, fit_append]
    exact ⟨Outline.fits_of_row whole whole.row, Identifier.callOutlines_fit stretches whole row, fit⟩
  next =>
    simp only [bind_eq_done, advance_eq_done, kind_eq_done] at ran
    obtain ⟨_, _, ⟨_, rfl⟩, second, _, ranSecond, seen, _, ⟨further, rfl⟩, ran⟩ := ran
    obtain ⟨there, member⟩ := identifier_stretches (after.taken next rfl) ranSecond
    split at ran
    next =>
      simp only [bind_eq_done, advance_eq_done] at ran
      obtain ⟨_, _, ⟨_, rfl⟩, ran⟩ := ran
      exact remoteOperation_passes passes stretches member (by omega) (there.taken further rfl) (by omega) ran
    next => exact memberCall_passes passes stretches member (by omega) there (by omega) ran
  next =>
    cases ran
    exact ⟨_, after, stretches.row, stretches.fit⟩

theorem operandBy_passes (rule : OperandRule) :
    (operandBy expression rule).Passes file stream inside Expr.span Expr.outlines := by
  cases rule with
  | literal => exact literal_passes
  | identifier => exact named_passes passes
  | negation => exact negation_passes passes
  | grouping => exact grouping_passes passes
  | readInt => exact readInt_passes
  | reveal => exact reveal_passes passes

theorem operand_passes {table : Table} (apart : table.Inner) :
    (operand expression table).Passes file stream anywhere Expr.span Expr.outlines := by
  intro cursor index value later stands _ ran
  simp only [operand, bind_eq_done, kind_eq_done] at ran
  obtain ⟨seen, _, ⟨rfl, rfl⟩, ran⟩ := ran
  cases known : table.operand cursor.kind with
  | none =>
    rw [known] at ran
    cases ran
  | some rule =>
    rw [known] at ran
    exact operandBy_passes passes rule _ _ _ _ stands (apart.operand known).1 ran

/-- The left operand begins where what was consumed for it does, or later. -/
theorem binary_passes {start : Nat} {left value : Expr} {power : Power}
    (before : cursor.Passed file stream start [left.span] left.outlines)
    (ran : binary expression left power cursor = .done value later) :
    later.Passed file stream start [value.span] value.outlines := by
  simp only [binary, bind_eq_done, kind_eq_done] at ran
  obtain ⟨seen, _, ⟨found, rfl⟩, ran⟩ := ran
  cases known : seen.operator? with
  | none =>
    rw [known] at ran
    cases ran
  | some operator =>
    have within : inside cursor := by
      rw [inside, found]
      rintro rfl
      cases known
    rw [known] at ran
    simp only [bind_eq_done, advance_eq_done, pure_eq_done] at ran
    obtain ⟨_, _, ⟨_, rfl⟩, right, _, ranRight, rfl, rfl⟩ := ran
    obtain ⟨index, stands, leftRow, leftFit⟩ := before
    obtain ⟨next, there, rightRow, rightFit⟩ := passes _ _ _ _ _ (stands.onward within) trivial ranRight
    obtain ⟨first, stop, after, stretches, less⟩ := leftRow.exists_stretches List.mem_cons_self
    obtain ⟨second, last, further, stretchesRight, close⟩ := rightRow.exists_stretches List.mem_cons_self
    have proper := stretches.proper
    have whole := stretches.join stretchesRight (by omega)
    refine ⟨next, there, whole.row.weaken after close, ?_⟩
    have operands : Row stream last first [left.span, right.span] :=
      .cons (Nat.le_refl first) stretches (stretchesRight.row.weaken (by omega) (Nat.le_refl last))
    rw [Expr.outlines, fit_cons, fit_append]
    exact ⟨Outline.fits_of_row whole operands, leftFit, rightFit⟩

theorem climbWithin_passes {table : Table} {start fuel : Nat} {power : Power} {left value : Expr}
    (before : cursor.Passed file stream start [left.span] left.outlines)
    (ran : climbWithin expression table power fuel left cursor = .done value later) :
    later.Passed file stream start [value.span] value.outlines := by
  induction fuel generalizing cursor left with
  | zero => cases ran
  | succ fuel ih =>
    simp only [climbWithin, bind_eq_done, kind_eq_done] at ran
    obtain ⟨_, _, ⟨rfl, rfl⟩, ran⟩ := ran
    split at ran
    next =>
      cases ran
      exact before
    next =>
      obtain ⟨taken, middle, ranBinary, ran⟩ := bind_eq_done.mp ran
      exact ih (binary_passes passes before ranBinary) ran

end

theorem expressionWithin_passes {table : Table} (apart : table.Inner) (fuel : Nat) (power : Power) :
    (expressionWithin table fuel power).Passes file stream anywhere Expr.span Expr.outlines := by
  induction fuel generalizing power with
  | zero => exact fun _ _ _ _ _ _ ran => nomatch ran
  | succ fuel passes =>
    intro cursor index value later stands _ ran
    simp only [expressionWithin, bind_eq_done] at ran
    obtain ⟨left, middle, ranLeft, ran⟩ := ran
    have before := operand_passes passes apart _ _ _ _ stands trivial ranLeft
    exact climbWithin_passes passes before ran

theorem expression_passes {table : Table} (apart : table.Inner) (power : Power) :
    (Parser.expression table power).Passes file stream anywhere Expr.span Expr.outlines :=
  fun _ _ _ _ stands _ ran => expressionWithin_passes apart _ power _ _ _ _ stands trivial ran

end Parser

end Multiparty
