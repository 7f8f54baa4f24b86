import Multiparty.Proofs.Consumption

/-! The reader of expressions takes the texts of expressions and nothing else. It climbs from an operand over
stronger and stronger operators, where the grammar descends through its levels. -/

namespace Multiparty
open Grammar Multiparty.Parser Token

theorem Grammar.ExprText.weaken {low high : Nat} {text : List Terminal} {expr : Expr} (less : low ≤ high)
    (spelled : ExprText high text expr) : ExprText low text expr := by
  induction less with
  | refl => exact spelled
  | step _ ih => exact ih (.stronger spelled)

theorem Table.rank_powerOf_le (kind : Kind) : (Table.standard.powerOf kind).rank ≤ 6 := by
  cases kind <;> decide

theorem Operator.rank_powerOf_kind (operator : Operator) :
    (Table.standard.powerOf operator.kind).rank = operator.precedence := by
  cases operator <;> rfl

theorem Operator.operator?_kind (operator : Operator) : operator.kind.operator? = some operator := by
  cases operator <;> rfl

theorem Operator.eq_kind {kind : Kind} {operator : Operator} (found : kind.operator? = some operator) :
    kind = operator.kind := by
  cases kind <;> cases found <;> rfl

theorem Operator.precedence_bounds (operator : Operator) :
    1 ≤ operator.precedence ∧ operator.precedence ≤ 6 := by
  cases operator <;> decide

namespace Parser
variable {cursor later : Cursor}

/-- Where an expression was read, it holds operators above the power only, and no such operator comes next. -/
def ReadsExpressions (expression : Power → Parser Expr) : Prop :=
  ∀ power cursor value later, cursor.Closed → expression power cursor = .done value later →
    ∃ text, cursor.Consumes text later ∧ ExprText (min (power.rank + 1) 7) text value.bare ∧
      (Table.standard.powerOf later.kind).rank ≤ power.rank

theorem literal_sound (closed : cursor.Closed) {value : Expr}
    (ran : literal cursor = .done value later) :
    ∃ text, cursor.Consumes text later ∧ ExprText 8 text value.bare := by
  simp only [literal, bind_eq_done, advance_eq_done] at ran
  obtain ⟨token, _, ⟨current, rfl⟩, ran⟩ := ran
  have inside : cursor.kind ≠ .endOfInput := by
    intro ended
    rw [Cursor.kind, current] at ended
    rw [ended] at ran
    cases ran
  have taken : cursor.Consumes [Terminal.of token] cursor.advance :=
    ⟨congrArg Terminal.of current, closed.ahead_ne_nil inside, rfl⟩
  generalize found : token.kind = kind at ran
  split at ran
  next =>
    cases digits : Text.integer? token.value with
    | none =>
      rw [digits] at ran
      cases ran
    | some number =>
      rw [digits] at ran
      cases ran
      rw [Terminal.of, found] at taken
      exact ⟨_, taken, .int digits⟩
  next =>
    cases ran
    rw [Terminal.of, found] at taken
    exact ⟨_, taken, .string⟩
  next =>
    cases ran
    exact ⟨_, taken, Terminal.of_eq_mark found rfl ▸ @ExprText.bool true⟩
  next =>
    cases ran
    exact ⟨_, taken, Terminal.of_eq_mark found rfl ▸ @ExprText.bool false⟩
  next => cases ran

theorem readInt_sound (closed : cursor.Closed) (found : cursor.kind = .readIntWord) {value : Expr}
    (ran : readInt cursor = .done value later) :
    ∃ text, cursor.Consumes text later ∧ ExprText 8 text value.bare := by
  simp only [readInt, bind_eq_done, advance_eq_done, expect_eq_done, expectFor_eq_done,
    spanFrom_eq_done, pure_eq_done] at ran
  obtain ⟨_, _, ⟨rfl, rfl⟩, _, _, ⟨opening, rfl, rfl⟩, _, _, ⟨closing, rfl, rfl⟩, _, _, ⟨rfl, rfl⟩, rfl,
    rfl⟩ := ran
  have word := closed.consumes_mark found rfl nofun
  have opened := (word.closed closed).consumes_mark opening rfl nofun
  have ended := (opened.closed (word.closed closed)).consumes_mark closing rfl nofun
  exact ⟨_, word.trans (opened.trans ended), .readInt⟩

section
variable {expression : Power → Parser Expr} (reads : ReadsExpressions expression)
include reads

theorem negation_sound (closed : cursor.Closed) (found : cursor.kind = .not) {value : Expr}
    (ran : negation expression cursor = .done value later) :
    ∃ text, cursor.Consumes text later ∧ ExprText 7 text value.bare := by
  simp only [negation, bind_eq_done, advance_eq_done, pure_eq_done] at ran
  obtain ⟨_, _, ⟨rfl, rfl⟩, operand, _, ran, rfl, rfl⟩ := ran
  have word := closed.consumes_mark found rfl nofun
  obtain ⟨text, taken, spelled, -⟩ := reads _ _ _ _ (word.closed closed) ran
  exact ⟨_, word.trans taken, .not spelled⟩

theorem grouping_sound (closed : cursor.Closed) (found : cursor.kind = .openParen) {value : Expr}
    (ran : grouping expression cursor = .done value later) :
    ∃ text, cursor.Consumes text later ∧ ExprText 8 text value.bare := by
  simp only [grouping, bind_eq_done, advance_eq_done, expect_eq_done, pure_eq_done] at ran
  obtain ⟨_, _, ⟨rfl, rfl⟩, inner, middle, ran, _, _, ⟨closing, rfl, rfl⟩, rfl, rfl⟩ := ran
  have opened := closed.consumes_mark found rfl nofun
  obtain ⟨text, taken, spelled, -⟩ := reads _ _ _ _ (opened.closed closed) ran
  have ended := (taken.closed (opened.closed closed)).consumes_mark closing rfl nofun
  exact ⟨_, opened.trans (taken.trans ended), .grouping spelled⟩

end

theorem namesText_cons (first : String) (rest : List String) : namesText (first :: rest) =
    .name first :: (rest.map fun name => [.mark .comma, .name name]).flatten := by
  induction rest generalizing first with
  | nil => rfl
  | cons second rest ih =>
    have shorter := ih second
    rw [namesText, List.map_cons] at shorter
    rw [namesText, List.map_cons, List.map_cons, List.intercalate_cons_cons, shorter]
    rfl

/-- The text of a name that is not the first of its list. -/
def FurtherName (text : List Terminal) (name : Identifier) : Prop :=
  ∃ spelled, text = [.mark .comma, .name spelled] ∧ name = bareName spelled

theorem furtherName_sound : Sound (fun cursor => decide (cursor.kind = .comma) = true)
    (do
      let _ ← advance
      identifier) Identifier.bare FurtherName := by
  intro cursor value later closed comma ran
  simp only [bind_eq_done, advance_eq_done, identifier_eq_done] at ran
  obtain ⟨_, _, ⟨rfl, rfl⟩, found, rfl, rfl⟩ := ran
  have separator := closed.consumes_mark (of_decide_eq_true comma) rfl nofun
  have name := (separator.closed closed).consumes_name found
  exact ⟨_, separator.trans name, _, rfl, rfl⟩

theorem names_sound (closed : cursor.Closed) {values : List Identifier}
    (ran : names cursor = .done values later) :
    ∃ names, names ≠ [] ∧ names.map bareName = values.map Identifier.bare ∧
      cursor.Consumes (namesText names) later := by
  simp only [names, bind_eq_done, identifier_eq_done, pure_eq_done] at ran
  obtain ⟨_, _, ⟨found, rfl, rfl⟩, rest, _, ran, rfl, rfl⟩ := ran
  have first := closed.consumes_name found
  obtain ⟨pieces, same, texts, others, -⟩ := many_sound furtherName_sound (first.closed closed) ran
  obtain ⟨names, spelled, named⟩ : ∃ names : List String,
      pieces.map Prod.fst = names.map (fun name => [.mark .comma, .name name]) ∧
        pieces.map Prod.snd = names.map bareName := by
    clear same others
    induction pieces with
    | nil => exact ⟨[], rfl, rfl⟩
    | cons piece pieces ih =>
      rw [List.forall_mem_cons] at texts
      obtain ⟨⟨name, text, value⟩, texts⟩ := texts
      obtain ⟨names, spelled, named⟩ := ih texts
      exact ⟨name :: names, by simp [text, spelled], by simp [value, named]⟩
  refine ⟨cursor.current.value :: names, nofun, ?_, ?_⟩
  · rw [List.map_cons, List.map_cons, ← named, same]
    rfl
  · rw [namesText_cons, ← spelled]
    exact first.trans others

section
variable {expression : Power → Parser Expr} (reads : ReadsExpressions expression)
include reads

theorem reveal_sound (closed : cursor.Closed) (found : cursor.kind = .openWord) {value : Expr}
    (ran : reveal expression cursor = .done value later) :
    ∃ text, cursor.Consumes text later ∧ ExprText 8 text value.bare := by
  simp only [reveal, bind_eq_done, advance_eq_done, expect_eq_done, expectFor_eq_done,
    spanFrom_eq_done, pure_eq_done] at ran
  obtain ⟨_, _, ⟨rfl, rfl⟩, _, _, ⟨opening, rfl, rfl⟩, body, middle, ran, _, _, ⟨bar, rfl, rfl⟩, opened,
    last, ranNames, _, _, ⟨closing, rfl, rfl⟩, _, _, ⟨rfl, rfl⟩, rfl, rfl⟩ := ran
  have word := closed.consumes_mark found rfl nofun
  have parenthesis := (word.closed closed).consumes_mark opening rfl nofun
  have closedBody := parenthesis.closed (word.closed closed)
  obtain ⟨text, taken, spelled, -⟩ := reads _ _ _ _ closedBody ran
  have pipe := (taken.closed closedBody).consumes_mark bar rfl nofun
  have closedNames := pipe.closed (taken.closed closedBody)
  obtain ⟨names, nonempty, same, listed⟩ := names_sound closedNames ranNames
  have ended := (listed.closed closedNames).consumes_mark closing rfl nofun
  rw [Expr.bare, ← same]
  refine ⟨_, ?_, .reveal spelled nonempty⟩
  have all := word.trans (parenthesis.trans (taken.trans (pipe.trans (listed.trans ended))))
  simpa using all

theorem arguments_sound (closed : cursor.Closed) {values : List Expr}
    (ran : arguments expression cursor = .done values later) :
    ∃ (pieces : List (List Terminal × Expr)) (listed : List Terminal),
      pieces.map Prod.snd = allBare values ∧
        (∀ piece ∈ pieces, ExprText 1 piece.1 piece.2) ∧ Listed (pieces.map Prod.fst) listed ∧
        cursor.Consumes (.mark .openParen :: listed ++ [.mark .closeParen]) later := by
  have sound : Sound anywhere (expression .default) Expr.bare (ExprText 1) := by
    intro cursor value later closed _ ran
    obtain ⟨text, taken, spelled, -⟩ := reads _ _ _ _ closed ran
    exact ⟨text, taken, spelled⟩
  rw [allBare_eq_map]
  exact commaSeparated_sound sound closed ran

theorem remoteOperation_sound (closed : cursor.Closed) (target tunnel : Identifier) {value : Expr}
    (ran : remoteOperation expression target tunnel cursor = .done value later) :
    ∃ text, cursor.Consumes text later ∧ ExprText 8 (.name target.name :: .mark .dot ::
      .name tunnel.name :: .mark .dot :: text) value.bare := by
  simp only [remoteOperation, bind_eq_done, identifier_eq_done, spanFrom_eq_done] at ran
  obtain ⟨operation, _, ⟨found, named, rfl⟩, values, _, ranValues, _, _, ⟨_, rfl⟩, _, _, ⟨_, rfl⟩,
    ran⟩ := ran
  have name := closed.consumes_name found
  obtain ⟨pieces, listed, same, texts, list, taken⟩ :=
    arguments_sound reads (name.closed closed) ranValues
  generalize spelled : operation.name = word at ran
  rw [← named] at spelled
  simp only at spelled
  rw [spelled] at name
  split at ran
  next =>
    cases ran
    obtain ⟨⟨text, _⟩, rfl, rfl⟩ := List.map_eq_singleton_iff.mp same
    exact ⟨_, name.trans taken, .remotePut (texts _ List.mem_cons_self) list⟩
  next =>
    cases ran
    obtain rfl := List.map_eq_nil_iff.mp same
    cases list
    exact ⟨_, name.trans taken, @ExprText.remoteRead _ _ .get⟩
  next =>
    cases ran
    obtain rfl := List.map_eq_nil_iff.mp same
    cases list
    exact ⟨_, name.trans taken, @ExprText.remoteRead _ _ .take⟩
  next => cases ran

theorem memberCall_sound (closed : cursor.Closed) (first second : Identifier) {value : Expr}
    (ran : memberCall expression first second cursor = .done value later) :
    ∃ text, cursor.Consumes text later ∧
      ExprText 8 (.name first.name :: .mark .dot :: .name second.name :: text) value.bare := by
  simp only [memberCall, bind_eq_done, spanFrom_eq_done] at ran
  obtain ⟨values, _, ranValues, _, _, ⟨_, rfl⟩, _, _, ⟨_, rfl⟩, ran⟩ := ran
  obtain ⟨pieces, listed, same, texts, list, taken⟩ := arguments_sound reads closed ranValues
  by_cases operation : isTunnelOperation second.name = true
  · rw [if_pos operation] at ran
    generalize spelled : second.name = word at ran
    split at ran
    next =>
      cases ran
      obtain ⟨⟨text, _⟩, rfl, rfl⟩ := List.map_eq_singleton_iff.mp same
      exact ⟨_, taken, .put (texts _ List.mem_cons_self) list⟩
    next =>
      cases ran
      obtain rfl := List.map_eq_nil_iff.mp same
      cases list
      exact ⟨_, taken, @ExprText.read _ .get⟩
    next =>
      cases ran
      obtain rfl := List.map_eq_nil_iff.mp same
      cases list
      exact ⟨_, taken, @ExprText.read _ .take⟩
    next => cases ran
  · rw [if_neg operation] at ran
    cases ran
    rw [Expr.bare, ← same]
    exact ⟨_, taken, .invoke (by simpa using operation) texts list⟩

theorem named_sound (closed : cursor.Closed) {value : Expr}
    (ran : named expression cursor = .done value later) :
    ∃ text, cursor.Consumes text later ∧ ExprText 8 text value.bare := by
  simp only [named, bind_eq_done, identifier_eq_done, kind_eq_done] at ran
  obtain ⟨first, _, ⟨found, named, rfl⟩, seen, _, ⟨next, rfl⟩, ran⟩ := ran
  have name := closed.consumes_name found
  have closedNext := name.closed closed
  subst named
  split at ran
  next =>
    simp only [bind_eq_done, spanFrom_eq_done, pure_eq_done] at ran
    obtain ⟨values, _, ranValues, _, _, ⟨_, rfl⟩, rfl, rfl⟩ := ran
    obtain ⟨pieces, listed, same, texts, list, taken⟩ := arguments_sound reads closedNext ranValues
    rw [Expr.bare, ← same]
    exact ⟨_, name.trans taken, .call texts list⟩
  next =>
    simp only [bind_eq_done, advance_eq_done, identifier_eq_done, kind_eq_done] at ran
    obtain ⟨_, _, ⟨_, rfl⟩, second, _, ⟨foundSecond, named, rfl⟩, seen, _, ⟨after, rfl⟩, ran⟩ := ran
    subst named
    have dot := closedNext.consumes_mark next rfl nofun
    have nameSecond := (dot.closed closedNext).consumes_name foundSecond
    have closedAfter := nameSecond.closed (dot.closed closedNext)
    split at ran
    next =>
      simp only [bind_eq_done, advance_eq_done] at ran
      obtain ⟨_, _, ⟨_, rfl⟩, ran⟩ := ran
      have dotSecond := closedAfter.consumes_mark after rfl nofun
      obtain ⟨text, taken, spelled⟩ :=
        remoteOperation_sound reads (dotSecond.closed closedAfter) _ _ ran
      exact ⟨_, name.trans (dot.trans (nameSecond.trans (dotSecond.trans taken))), spelled⟩
    next =>
      obtain ⟨text, taken, spelled⟩ := memberCall_sound reads closedAfter _ _ ran
      exact ⟨_, name.trans (dot.trans (nameSecond.trans taken)), spelled⟩
  next =>
    cases ran
    exact ⟨_, name, .symbol⟩

theorem operand_sound (closed : cursor.Closed) {value : Expr}
    (ran : operand expression .standard cursor = .done value later) :
    ∃ text, cursor.Consumes text later ∧ ExprText 7 text value.bare := by
  have weaker (sound : ∃ text, cursor.Consumes text later ∧ ExprText 8 text value.bare) :
      ∃ text, cursor.Consumes text later ∧ ExprText 7 text value.bare := by
    obtain ⟨text, taken, spelled⟩ := sound
    exact ⟨text, taken, .stronger spelled⟩
  simp only [operand, bind_eq_done, kind_eq_done] at ran
  obtain ⟨seen, _, ⟨found, rfl⟩, ran⟩ := ran
  cases known : Table.standard.operand seen with
  | none =>
    rw [known] at ran
    cases ran
  | some rule =>
    rw [known] at ran
    cases rule with
    | literal => exact weaker (literal_sound closed ran)
    | identifier => exact weaker (named_sound reads closed ran)
    | negation =>
      have word : seen = .not := by cases seen <;> first | rfl | cases known
      exact negation_sound reads closed (found.trans word) ran
    | grouping =>
      have word : seen = .openParen := by cases seen <;> first | rfl | cases known
      exact weaker (grouping_sound reads closed (found.trans word) ran)
    | readInt =>
      have word : seen = .readIntWord := by cases seen <;> first | rfl | cases known
      exact weaker (readInt_sound closed (found.trans word) ran)
    | reveal =>
      have word : seen = .openWord := by cases seen <;> first | rfl | cases known
      exact weaker (reveal_sound reads closed (found.trans word) ran)

/-- An operator of the text has the left operand before it, which holds at least as strongly. -/
theorem binary_sound (closed : cursor.Closed) {left value : Expr} {text : List Terminal}
    {start : Cursor} (before : start.Consumes text cursor) {level : Nat}
    (spelled : ExprText level text left.bare)
    (weaker : (Table.standard.powerOf cursor.kind).rank ≤ level)
    (ran : binary expression left (Table.standard.powerOf cursor.kind) cursor = .done value later) :
    ∃ operator : Operator, ∃ text, cursor.kind = operator.kind ∧ start.Consumes text later ∧
      ExprText operator.precedence text value.bare ∧
      (Table.standard.powerOf later.kind).rank ≤ operator.precedence := by
  simp only [binary, bind_eq_done, kind_eq_done] at ran
  obtain ⟨seen, _, ⟨found, rfl⟩, ran⟩ := ran
  cases known : seen.operator? with
  | none =>
    rw [known] at ran
    cases ran
  | some operator =>
    have sign : cursor.kind = operator.kind := found.trans (Operator.eq_kind known)
    rw [known] at ran
    simp only [bind_eq_done, advance_eq_done, pure_eq_done] at ran
    obtain ⟨_, _, ⟨_, rfl⟩, right, _, ranRight, rfl, rfl⟩ := ran
    have inner : operator.kind.isMark ∧ operator.kind ≠ .endOfInput := by
      cases operator <;> decide
    have word := closed.consumes_mark sign inner.1 inner.2
    obtain ⟨textRight, taken, spelledRight, stronger⟩ := reads _ _ _ _ (word.closed closed) ranRight
    rw [sign, Operator.rank_powerOf_kind] at weaker spelledRight stronger
    have bounds := operator.precedence_bounds
    refine ⟨operator, _, sign, before.trans (word.trans taken), ?_, stronger⟩
    exact .binary (spelled.weaken weaker) (spelledRight.weaken (by omega))

theorem climbWithin_sound {fuel : Nat} {power : Power} {left value : Expr}
    {text : List Terminal} {start : Cursor} (closed : start.Closed) (before : start.Consumes text cursor) {level : Nat}
    (spelled : ExprText level text left.bare) (enough : min (power.rank + 1) 7 ≤ level)
    (weaker : (Table.standard.powerOf cursor.kind).rank ≤ level)
    (ran : climbWithin expression .standard power fuel left cursor = .done value later) :
    ∃ text, start.Consumes text later ∧ ExprText (min (power.rank + 1) 7) text value.bare ∧
      (Table.standard.powerOf later.kind).rank ≤ power.rank := by
  induction fuel generalizing cursor left text level with
  | zero => cases ran
  | succ fuel ih =>
    simp only [climbWithin, bind_eq_done, kind_eq_done] at ran
    obtain ⟨_, _, ⟨rfl, rfl⟩, ran⟩ := ran
    by_cases stops : (Table.standard.powerOf cursor.kind).rank ≤ power.rank
    · rw [if_pos stops, pure_eq_done] at ran
      obtain ⟨rfl, rfl⟩ := ran
      exact ⟨text, before, spelled.weaken enough, stops⟩
    · rw [if_neg stops, bind_eq_done] at ran
      obtain ⟨taken, middle, ranBinary, ran⟩ := ran
      obtain ⟨operator, text, sign, whole, spelledWhole, next⟩ :=
        binary_sound reads (before.closed closed) before spelled weaker ranBinary
      rw [sign, Operator.rank_powerOf_kind] at stops
      exact ih whole spelledWhole (by omega) next ran

end

theorem expressionWithin_sound (fuel : Nat) : ReadsExpressions (expressionWithin .standard fuel) := by
  induction fuel with
  | zero => exact fun _ _ _ _ _ ran => nomatch ran
  | succ fuel reads =>
    intro power cursor value later closed ran
    simp only [expressionWithin, bind_eq_done] at ran
    obtain ⟨left, middle, ranLeft, ran⟩ := ran
    obtain ⟨text, taken, spelled⟩ := operand_sound reads closed ranLeft
    have weak := Table.rank_powerOf_le middle.kind
    exact climbWithin_sound reads closed taken spelled (by omega) (by omega) ran

theorem expression_sound (closed : cursor.Closed) {value : Expr}
    (ran : expression .standard .default cursor = .done value later) :
    ∃ text, cursor.Consumes text later ∧ ExprText 1 text value.bare := by
  obtain ⟨text, taken, spelled, -⟩ := expressionWithin_sound _ _ _ _ _ closed ran
  exact ⟨text, taken, spelled⟩

end Parser
end Multiparty
