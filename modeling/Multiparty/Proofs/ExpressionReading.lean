import Multiparty.Proofs.ExpressionTexts

/-! Every text of an expression is read, and read as that expression. An operand that stands before an operator is
read by the climb that later takes the operator, so what is shown of a text is where the climb goes on. -/

namespace Multiparty
open Grammar Multiparty.Parser Token

namespace Grammar

/-- What an expression may begin with. An equals sign never comes second: that would be an assignment. -/
theorem ExprText.first {level : Nat} {text : List Terminal} {expr : Expr}
    (spelled : ExprText level text expr) : ∃ first rest, text = first :: rest ∧
      (Table.standard.operand first.kind).isSome ∧ rest.head? ≠ some (.mark .assignment) := by
  induction spelled with
  | stronger _ ih => exact ih
  | @binary operator _ _ _ _ _ _ ih _ =>
    obtain ⟨first, rest, rfl, starts, second⟩ := ih
    refine ⟨first, rest ++ _, rfl, starts, ?_⟩
    cases rest with
    | nil => cases operator <;> nofun
    | cons => exact second
  | not _ ih =>
    obtain ⟨first, rest, rfl, starts, -⟩ := ih
    refine ⟨_, _, rfl, rfl, ?_⟩
    intro second
    cases Option.some.inj second
    cases starts
  | @bool value => cases value <;> exact ⟨_, _, rfl, rfl, nofun⟩
  | grouping _ ih =>
    obtain ⟨first, rest, rfl, starts, -⟩ := ih
    refine ⟨_, _, rfl, rfl, ?_⟩
    intro second
    cases Option.some.inj second
    cases starts
  | _ => exact ⟨_, _, rfl, rfl, nofun⟩

end Grammar

namespace Parser
variable {cursor later : Cursor}

theorem identifier_complete {name : String} {rest : List Terminal}
    (consumed : cursor.Consumes (.name name :: rest) later) :
    identifier cursor = .done ⟨name, cursor.current.span⟩ cursor.advance := by
  obtain ⟨found, spelled⟩ := Terminal.eq_of_of_eq_name consumed.1
  exact identifier_eq_done.mpr ⟨found, by rw [spelled], rfl⟩

/-- No operator of the level or a weaker one continues an expression here, and nothing turns a name into a call. -/
structure Ends (level : Nat) (cursor : Cursor) : Prop where
  noCall : cursor.kind ≠ .openParen
  noMember : cursor.kind ≠ .dot
  noOperator : (Table.standard.powerOf cursor.kind).rank ≤ level

theorem Ends.weaken {low high : Nat} (ends : Ends low cursor) (less : low ≤ high) : Ends high cursor :=
  ⟨ends.noCall, ends.noMember, Nat.le_trans ends.noOperator less⟩

/-- From the text, the climb of any weaker power goes on after it with its expression. -/
def Climbs (level : Nat) (text : List Terminal) (expr : Expr) : Prop :=
  ∀ fuel power cursor later, min power.rank 6 < level → cursor.Consumes text later →
    Ends level later → cursor.remaining ≤ fuel →
    ∃ value steps, value.bare = expr ∧ later.remaining < steps ∧
      (operand (expressionWithin .standard fuel) .standard >>=
          climb (expressionWithin .standard fuel) .standard power) cursor =
        climbWithin (expressionWithin .standard fuel) .standard power steps value later

section
variable {table : Table} {expression : Power → Parser Expr} {power : Power} {steps : Nat}

theorem climbWithin_stop (stops : (table.powerOf cursor.kind).rank ≤ power.rank) (value : Expr) :
    climbWithin expression table power (steps + 1) value cursor = .done value cursor := by
  rw [climbWithin, bind_done (kind_eq_done.mpr ⟨rfl, rfl⟩)]
  simp only [stops, if_true]
  rfl

/-- An operator above the power is taken with its right operand, and the climb goes on from both. -/
theorem climbWithin_step {operator : Operator} {left right : Expr}
    (sign : cursor.kind.operator? = some operator) (above : power.rank < (table.powerOf cursor.kind).rank)
    (ran : expression (table.powerOf cursor.kind) cursor.advance = .done right later) :
    climbWithin expression table power (steps + 1) left cursor =
      climbWithin expression table power steps (.binary operator left right (left.span.join right.span)) later := by
  have took : binary expression left (table.powerOf cursor.kind) cursor =
      .done (.binary operator left right (left.span.join right.span)) later := by
    rw [binary, bind_done (kind_eq_done.mpr ⟨rfl, rfl⟩), sign]
    simp only
    rw [bind_done (advance_eq_done.mpr ⟨rfl, rfl⟩), bind_done ran]
    rfl
  rw [climbWithin, bind_done (kind_eq_done.mpr ⟨rfl, rfl⟩), if_neg (Nat.not_le.mpr above), bind_done took]

end

theorem Climbs.reads {level : Nat} {text : List Terminal} {expr : Expr}
    (climbs : Climbs level text expr) (power : Power) (above : min power.rank 6 < level)
    (consumed : cursor.Consumes text later) (ends : Ends (min level power.rank) later) {fuel : Nat}
    (near : cursor.remaining < fuel) :
    ∃ value, expressionWithin .standard fuel power cursor = .done value later ∧
      value.bare = expr := by
  obtain ⟨less, rfl⟩ : ∃ less, fuel = less + 1 := ⟨fuel - 1, by omega⟩
  obtain ⟨value, steps, same, enough, ran⟩ :=
    climbs less power cursor later above consumed (ends.weaken (by omega)) (by omega)
  obtain ⟨steps, rfl⟩ : ∃ fewer, steps = fewer + 1 := ⟨steps - 1, by omega⟩
  have stops := ends.noOperator
  refine ⟨value, ?_, same⟩
  rw [expressionWithin, ran, climbWithin_stop (by omega)]

/-- An operand is where every climb begins. -/
theorem climbs_of_operand {text : List Terminal} {expr : Expr}
    (reads : ∀ fuel cursor later, cursor.Consumes text later → Ends 8 later →
      cursor.remaining ≤ fuel → ∃ value,
        operand (expressionWithin .standard fuel) .standard cursor = .done value later ∧
          value.bare = expr) (level : Nat) : Climbs level text expr := by
  intro fuel power cursor later _ consumed ends near
  have weak := Table.rank_powerOf_le later.kind
  have ends' : Ends 8 later := ⟨ends.noCall, ends.noMember, by omega⟩
  obtain ⟨value, ran, same⟩ := reads fuel cursor later consumed ends' near
  refine ⟨value, later.fuel, same, by simp only [Cursor.remaining, Cursor.fuel]; omega, ?_⟩
  rw [bind_done ran]
  rfl

/-- Where an expression in parentheses, in a list, before a semicolon or by itself ends. -/
theorem ends_of_kind {kind : Kind} (found : cursor.kind = kind)
    (closes : kind ∈ [Kind.closeParen, .comma, .pipe, .semicolon, .endOfInput]) (level : Nat) :
    Ends level cursor := by
  subst found
  refine ⟨?_, ?_, ?_⟩
  · intro same
    simp [same] at closes
  · intro same
    simp [same] at closes
  · generalize cursor.kind = kind at closes
    simp only [List.mem_cons, List.not_mem_nil, or_false] at closes
    rcases closes with rfl | rfl | rfl | rfl | rfl <;> exact Nat.zero_le _

section
variable {fuel : Nat}

theorem operand_run {table : Table} (rule : OperandRule) {expression : Power → Parser Expr}
    (known : table.operand cursor.kind = some rule) :
    operand expression table cursor = operandBy expression rule cursor := by
  rw [operand, bind_done (kind_eq_done.mpr ⟨rfl, rfl⟩), known]

theorem mark_kind {kind : Kind} {rest : List Terminal}
    (consumed : cursor.Consumes (.mark kind :: rest) later) : cursor.kind = kind :=
  consumed.kind_eq

theorem expect_complete {kind : Kind} {rest : List Terminal}
    (consumed : cursor.Consumes (.mark kind :: rest) later) :
    expect kind cursor = .done cursor.current cursor.advance :=
  expect_eq_done.mpr ⟨mark_kind consumed, rfl, rfl⟩

theorem expectFor_complete {kind : Kind} {rest : List Terminal} (reason : String)
    (consumed : cursor.Consumes (.mark kind :: rest) later) :
    expectFor kind reason cursor = .done cursor.current cursor.advance :=
  expectFor_eq_done.mpr ⟨mark_kind consumed, rfl, rfl⟩

theorem advance_complete : advance cursor = .done cursor.current cursor.advance := rfl

theorem int_climbs {digits : String} {number : Int64} (known : Text.integer? digits = some number)
    (level : Nat) : Climbs level [.number digits] (.int number .nowhere) := by
  apply climbs_of_operand
  intro fuel cursor later consumed _ _
  have found : cursor.current.kind = .number := consumed.kind_eq
  obtain ⟨spelled, _, rfl⟩ := consumed
  rw [Terminal.of, found] at spelled
  have value : cursor.current.value = digits := Terminal.number.inj spelled
  refine ⟨.int number cursor.current.span, ?_, rfl⟩
  rw [operand_run .literal (by rw [Cursor.kind, found]; rfl), operandBy, literal,
    bind_done advance_complete, found]
  simp only [value, known]
  rfl

theorem string_climbs (value : String) (level : Nat) :
    Climbs level [.string value] (.string value .nowhere) := by
  apply climbs_of_operand
  intro fuel cursor later consumed _ _
  have found : cursor.current.kind = .string := consumed.kind_eq
  obtain ⟨spelled, _, rfl⟩ := consumed
  rw [Terminal.of, found] at spelled
  cases Terminal.string.inj spelled
  refine ⟨.string cursor.current.value cursor.current.span, ?_, rfl⟩
  rw [operand_run .literal (by rw [Cursor.kind, found]; rfl), operandBy, literal,
    bind_done advance_complete, found]
  rfl

theorem bool_climbs (value : Bool) (level : Nat) :
    Climbs level [.mark (if value then .trueWord else .falseWord)] (.bool value .nowhere) := by
  apply climbs_of_operand
  intro fuel cursor later consumed _ _
  refine ⟨.bool value cursor.current.span, ?_, rfl⟩
  have found := mark_kind consumed
  obtain ⟨_, _, rfl⟩ := consumed
  have known : Table.standard.operand cursor.kind = some .literal := by
    cases value <;> rw [found] <;> rfl
  rw [Cursor.kind] at found
  rw [operand_run .literal known, operandBy, literal, bind_done advance_complete, found]
  cases value <;> rfl

theorem readInt_climbs (level : Nat) :
    Climbs level [.mark .readIntWord, .mark .openParen, .mark .closeParen] (.readInt .nowhere) := by
  apply climbs_of_operand
  intro fuel cursor later consumed _ _
  obtain ⟨_, _, second⟩ := id consumed
  obtain ⟨_, _, third⟩ := id second
  refine ⟨.readInt (cursor.advance.advance.advance.spanFrom cursor.current.span.start), ?_, rfl⟩
  rw [operand_run .readInt (by rw [mark_kind consumed]; rfl), operandBy, readInt,
    bind_done advance_complete, bind_done (expect_complete second),
    bind_done (expectFor_complete _ third), bind_done (spanFrom_eq_done.mpr ⟨rfl, rfl⟩)]
  exact pure_eq_done.mpr ⟨rfl, third.2.2⟩

theorem grouping_climbs {text : List Terminal} {expr : Expr} (inner : Climbs 1 text expr)
    (level : Nat) : Climbs level (.mark .openParen :: text ++ [.mark .closeParen]) expr := by
  apply climbs_of_operand
  intro fuel cursor later consumed _ near
  obtain ⟨_, more, rest⟩ := id consumed
  obtain ⟨middle, taken, closes⟩ := Cursor.consumes_append.mp rest
  have fewer := Cursor.remaining_advance more
  have ends := ends_of_kind (mark_kind closes) (by decide) 0
  obtain ⟨value, ran, same⟩ :=
    inner.reads .default (by decide) taken ends (show cursor.advance.remaining < fuel by omega)
  refine ⟨value, ?_, same⟩
  rw [operand_run .grouping (by rw [mark_kind consumed]; rfl), operandBy, grouping,
    bind_done advance_complete, bind_done ran, bind_done (expect_complete closes)]
  exact pure_eq_done.mpr ⟨rfl, closes.2.2⟩

theorem not_climbs {text : List Terminal} {expr : Expr} (inner : Climbs 7 text expr)
    (level : Nat) : Climbs level (.mark .not :: text) (.not expr .nowhere) := by
  apply climbs_of_operand
  intro fuel cursor later consumed ends near
  obtain ⟨_, more, rest⟩ := id consumed
  have fewer := Cursor.remaining_advance more
  have weak := Table.rank_powerOf_le later.kind
  have ends' : Ends 7 later := ⟨ends.noCall, ends.noMember, by omega⟩
  obtain ⟨value, ran, same⟩ :=
    inner.reads .unary (by decide) rest ends' (show cursor.advance.remaining < fuel by omega)
  refine ⟨.not value ⟨cursor.current.span.start, value.span.stop⟩, ?_, by rw [Expr.bare, same]⟩
  rw [operand_run .negation (by rw [mark_kind consumed]; rfl), operandBy, negation,
    bind_done advance_complete, bind_done ran]
  rfl

/-- A name that is not followed by what would make it a call. -/
theorem symbol_climbs (name : String) (level : Nat) :
    Climbs level [.name name] (.symbol name .nowhere) := by
  apply climbs_of_operand
  intro fuel cursor later consumed ends _
  have named := identifier_complete consumed
  have known : Table.standard.operand cursor.kind = some .identifier := by
    rw [consumed.kind_eq]
    rfl
  obtain ⟨_, _, rfl⟩ := consumed
  refine ⟨.symbol name cursor.current.span, ?_, rfl⟩
  rw [operand_run .identifier known, operandBy, Parser.named, bind_done named,
    bind_done (kind_eq_done.mpr ⟨rfl, rfl⟩)]
  have noCall := ends.noCall
  have noMember := ends.noMember
  generalize cursor.advance.kind = next at noCall noMember
  split
  next => exact absurd rfl noCall
  next => exact absurd rfl noMember
  next => rfl

end

/-- An argument list of which it is known that each member can be read. -/
structure ArgumentList where
  pieces : List (List Terminal × Expr)
  listed : List Terminal
  climb : ∀ piece ∈ pieces, Climbs 1 piece.1 piece.2
  spelled : ∀ piece ∈ pieces, ExprText 1 piece.1 piece.2
  list : Listed (pieces.map Prod.fst) listed

namespace ArgumentList

def values (list : ArgumentList) : List Expr :=
  list.pieces.map Prod.snd

def text (list : ArgumentList) : List Terminal :=
  .mark .openParen :: list.listed ++ [.mark .closeParen]

theorem complete (expected : ArgumentList) (fuel : Nat)
    (consumed : cursor.Consumes expected.text later) (near : cursor.remaining ≤ fuel) :
    ∃ values, arguments (expressionWithin .standard fuel) cursor = .done values later ∧
      allBare values = expected.values := by
  have starts : ∀ piece ∈ expected.pieces, ∀ cursor later : Cursor, cursor.Consumes piece.1 later →
      piece.1 ≠ [] ∧ cursor.kind ≠ .closeParen := by
    intro piece member cursor later taken
    obtain ⟨first, rest, same, begins, -⟩ := (expected.spelled piece member).first
    rw [same] at taken ⊢
    refine ⟨nofun, ?_⟩
    intro closing
    rw [← taken.kind_eq, closing] at begins
    cases begins
  have each : ∀ piece ∈ expected.pieces, ∀ cursor later : Cursor, cursor.Consumes piece.1 later →
      EndsItem later → cursor.remaining < fuel → ∃ value,
        expressionWithin .standard fuel .default cursor = .done value later ∧
          value.bare = piece.2 := by
    intro piece member cursor later taken ends near
    have ends' : Ends 0 later := by
      rcases ends with closing | comma
      · exact ends_of_kind closing (by decide) 0
      · exact ends_of_kind comma (by decide) 0
    exact (expected.climb piece member).reads .default (by decide) taken ends' near
  obtain ⟨values, ran, same⟩ :=
    commaSeparated_complete starts each expected.list consumed (by omega)
  exact ⟨values, ran, by rw [allBare_eq_map, same, ArgumentList.values]⟩

end ArgumentList

/-- Whatever is read by the rule for names is an operand. -/
theorem climbs_of_named {name : String} {text : List Terminal} {expr : Expr}
    (reads : ∀ fuel cursor later, cursor.Consumes (.name name :: text) later →
      cursor.remaining ≤ fuel → ∃ value,
        named (expressionWithin .standard fuel) cursor = .done value later ∧
          value.bare = expr) (level : Nat) : Climbs level (.name name :: text) expr := by
  apply climbs_of_operand
  intro fuel cursor later consumed _ near
  obtain ⟨value, ran, same⟩ := reads fuel cursor later consumed near
  refine ⟨value, ?_, same⟩
  rw [operand_run .identifier (by rw [consumed.kind_eq]; rfl), operandBy, ran]

theorem call_climbs (list : ArgumentList) (function : String) (level : Nat) :
    Climbs level (.name function :: list.text)
      (.call (bareName function) list.values .nowhere .nowhere) := by
  apply climbs_of_named
  intro fuel cursor later consumed near
  obtain ⟨_, more, rest⟩ := id consumed
  have fewer := Cursor.remaining_advance more
  obtain ⟨values, ran, same⟩ := list.complete fuel rest (by omega)
  refine ⟨.call ⟨function, cursor.current.span⟩ values
    (later.spanFrom cursor.current.span.start) (later.spanFrom cursor.current.span.start), ?_, ?_⟩
  · rw [named, bind_done (identifier_complete consumed),
      bind_done (kind_eq_done.mpr ⟨mark_kind rest, rfl⟩)]
    simp only
    rw [bind_done ran, bind_done (spanFrom_eq_done.mpr ⟨rfl, rfl⟩)]
    rfl
  · rw [Expr.bare, same]
    rfl

/-- After a name, a dot and another name, what comes next decides how it goes on. -/
theorem named_member {first second : String} {rest : List Terminal}
    {expression : Power → Parser Expr}
    (consumed : cursor.Consumes (.name first :: .mark .dot :: .name second :: .mark .openParen :: rest)
      later) :
    ∃ firstSpan secondSpan : Span, ∃ middle : Cursor,
      middle.Consumes (.mark .openParen :: rest) later ∧
        middle.remaining ≤ cursor.remaining ∧
        named expression cursor =
          memberCall expression ⟨first, firstSpan⟩ ⟨second, secondSpan⟩ middle := by
  obtain ⟨_, moreFirst, dot⟩ := id consumed
  obtain ⟨_, moreDot, name⟩ := id dot
  obtain ⟨_, moreName, opening⟩ := id name
  have fewer := Cursor.remaining_advance moreFirst
  have fewerDot := Cursor.remaining_advance moreDot
  have fewerName := Cursor.remaining_advance moreName
  refine ⟨cursor.current.span, cursor.advance.advance.current.span, _, opening, by omega, ?_⟩
  rw [named, bind_done (identifier_complete consumed),
    bind_done (kind_eq_done.mpr ⟨mark_kind dot, rfl⟩)]
  simp only
  rw [bind_done advance_complete, bind_done (identifier_complete name),
    bind_done (kind_eq_done.mpr ⟨mark_kind opening, rfl⟩)]

theorem named_remote {first second : String} {rest : List Terminal}
    {expression : Power → Parser Expr}
    (consumed : cursor.Consumes (.name first :: .mark .dot :: .name second :: .mark .dot :: rest)
      later) :
    ∃ firstSpan secondSpan : Span, ∃ middle : Cursor, middle.Consumes rest later ∧
      middle.remaining ≤ cursor.remaining ∧
      named expression cursor =
        remoteOperation expression ⟨first, firstSpan⟩ ⟨second, secondSpan⟩ middle := by
  obtain ⟨_, moreFirst, dot⟩ := id consumed
  obtain ⟨_, moreDot, name⟩ := id dot
  obtain ⟨_, moreName, dotSecond⟩ := id name
  obtain ⟨_, moreDotSecond, operation⟩ := id dotSecond
  have fewer := Cursor.remaining_advance moreFirst
  have fewerDot := Cursor.remaining_advance moreDot
  have fewerName := Cursor.remaining_advance moreName
  have fewerDotSecond := Cursor.remaining_advance moreDotSecond
  refine ⟨cursor.current.span, cursor.advance.advance.current.span, _, operation, by omega, ?_⟩
  rw [named, bind_done (identifier_complete consumed),
    bind_done (kind_eq_done.mpr ⟨mark_kind dot, rfl⟩)]
  simp only
  rw [bind_done advance_complete, bind_done (identifier_complete name),
    bind_done (kind_eq_done.mpr ⟨mark_kind dotSecond, rfl⟩)]
  simp only
  rw [bind_done advance_complete]

theorem invoke_climbs (list : ArgumentList) (target function : String)
    (free : isTunnelOperation function = false) (level : Nat) :
    Climbs level (.name target :: .mark .dot :: .name function :: list.text)
      (.invoke (bareName target) (bareName function) list.values .nowhere .nowhere) := by
  apply climbs_of_named
  intro fuel cursor later consumed near
  obtain ⟨targetSpan, functionSpan, middle, taken, less, ran⟩ := named_member consumed
  obtain ⟨values, ranValues, same⟩ := list.complete fuel taken (by omega)
  refine ⟨.invoke ⟨target, targetSpan⟩ ⟨function, functionSpan⟩ values
    (later.spanFrom functionSpan.start) (later.spanFrom targetSpan.start), ?_, ?_⟩
  · rw [ran, memberCall, bind_done ranValues, bind_done (spanFrom_eq_done.mpr ⟨rfl, rfl⟩),
      bind_done (spanFrom_eq_done.mpr ⟨rfl, rfl⟩), if_neg (by simp [free])]
    rfl
  · rw [Expr.bare, same]
    rfl

namespace ArgumentList

def single {text listed : List Terminal} {value : Expr} (climbs : Climbs 1 text value)
    (spelled : ExprText 1 text value) (list : Listed [text] listed) : ArgumentList :=
  ⟨[(text, value)], listed, by simpa using climbs, by simpa using spelled, list⟩

def empty : ArgumentList :=
  ⟨[], [], nofun, nofun, .nil⟩

/-- An argument list of one member is read as one value. -/
theorem single_complete {text listed : List Terminal} {expr : Expr} (climbs : Climbs 1 text expr)
    (spelled : ExprText 1 text expr) (list : Listed [text] listed) (fuel : Nat)
    (consumed : cursor.Consumes (.mark .openParen :: listed ++ [.mark .closeParen]) later)
    (near : cursor.remaining ≤ fuel) :
    ∃ value, arguments (expressionWithin .standard fuel) cursor = .done [value] later ∧
      value.bare = expr := by
  obtain ⟨values, ran, same⟩ := (single climbs spelled list).complete fuel consumed near
  rw [allBare_eq_map] at same
  obtain ⟨value, rfl, bare⟩ := List.map_eq_singleton_iff.mp same
  exact ⟨value, ran, bare⟩

theorem empty_complete (fuel : Nat)
    (consumed : cursor.Consumes [.mark .openParen, .mark .closeParen] later)
    (near : cursor.remaining ≤ fuel) :
    arguments (expressionWithin .standard fuel) cursor = .done [] later := by
  obtain ⟨values, ran, same⟩ := empty.complete fuel consumed near
  rw [allBare_eq_map] at same
  obtain rfl := List.map_eq_nil_iff.mp same
  exact ran

end ArgumentList

theorem put_climbs {text listed : List Terminal} {value : Expr} (climbs : Climbs 1 text value)
    (spelled : ExprText 1 text value) (list : Listed [text] listed) (tunnel : String) (level : Nat) :
    Climbs level (.name tunnel :: .mark .dot :: .name "put" :: .mark .openParen :: listed ++
      [.mark .closeParen]) (.put (bareName tunnel) value .nowhere .nowhere) := by
  apply climbs_of_named
  intro fuel cursor later consumed near
  obtain ⟨tunnelSpan, putSpan, middle, taken, less, ran⟩ := named_member consumed
  obtain ⟨value, ranValue, same⟩ :=
    ArgumentList.single_complete climbs spelled list fuel taken (by omega)
  refine ⟨.put ⟨tunnel, tunnelSpan⟩ value (later.spanFrom tunnelSpan.start)
    (later.spanFrom tunnelSpan.start), ?_, ?_⟩
  · rw [ran, memberCall, bind_done ranValue, bind_done (spanFrom_eq_done.mpr ⟨rfl, rfl⟩),
      bind_done (spanFrom_eq_done.mpr ⟨rfl, rfl⟩)]
    rfl
  · rw [Expr.bare, same]
    rfl

theorem read_climbs (tunnel : String) (reading : Reading) (level : Nat) :
    Climbs level [.name tunnel, .mark .dot, .name reading.name, .mark .openParen, .mark .closeParen]
      (.read (bareName tunnel) reading .nowhere .nowhere) := by
  apply climbs_of_named
  intro fuel cursor later consumed near
  obtain ⟨tunnelSpan, readSpan, middle, taken, less, ran⟩ := named_member consumed
  have ranNone := ArgumentList.empty_complete fuel taken (by omega)
  refine ⟨.read ⟨tunnel, tunnelSpan⟩ reading (later.spanFrom tunnelSpan.start)
    (later.spanFrom tunnelSpan.start), ?_, rfl⟩
  rw [ran, memberCall, bind_done ranNone, bind_done (spanFrom_eq_done.mpr ⟨rfl, rfl⟩),
    bind_done (spanFrom_eq_done.mpr ⟨rfl, rfl⟩)]
  cases reading <;> rfl

theorem remotePut_climbs {text listed : List Terminal} {value : Expr} (climbs : Climbs 1 text value)
    (spelled : ExprText 1 text value) (list : Listed [text] listed) (target tunnel : String)
    (level : Nat) :
    Climbs level (.name target :: .mark .dot :: .name tunnel :: .mark .dot :: .name "put" ::
        .mark .openParen :: listed ++ [.mark .closeParen])
      (.remotePut (bareName target) (bareName tunnel) value .nowhere .nowhere) := by
  apply climbs_of_named
  intro fuel cursor later consumed near
  obtain ⟨targetSpan, tunnelSpan, middle, taken, less, ran⟩ := named_remote consumed
  obtain ⟨_, more, rest⟩ := id taken
  have fewer := Cursor.remaining_advance more
  obtain ⟨value, ranValue, same⟩ :=
    ArgumentList.single_complete climbs spelled list fuel rest (by omega)
  refine ⟨.remotePut ⟨target, targetSpan⟩ ⟨tunnel, tunnelSpan⟩ value
    (later.spanFrom tunnelSpan.start) (later.spanFrom targetSpan.start), ?_, ?_⟩
  · rw [ran, remoteOperation, bind_done (identifier_complete taken), bind_done ranValue,
      bind_done (spanFrom_eq_done.mpr ⟨rfl, rfl⟩), bind_done (spanFrom_eq_done.mpr ⟨rfl, rfl⟩)]
    rfl
  · rw [Expr.bare, same]
    rfl

theorem remoteRead_climbs (target tunnel : String) (reading : Reading) (level : Nat) :
    Climbs level [.name target, .mark .dot, .name tunnel, .mark .dot, .name reading.name,
        .mark .openParen, .mark .closeParen]
      (.remoteRead (bareName target) (bareName tunnel) reading .nowhere .nowhere) := by
  apply climbs_of_named
  intro fuel cursor later consumed near
  obtain ⟨targetSpan, tunnelSpan, middle, taken, less, ran⟩ := named_remote consumed
  obtain ⟨_, more, rest⟩ := id taken
  have fewer := Cursor.remaining_advance more
  have ranNone := ArgumentList.empty_complete fuel rest (by omega)
  refine ⟨.remoteRead ⟨target, targetSpan⟩ ⟨tunnel, tunnelSpan⟩ reading
    (later.spanFrom tunnelSpan.start) (later.spanFrom targetSpan.start), ?_, rfl⟩
  rw [ran, remoteOperation, bind_done (identifier_complete taken), bind_done ranNone,
    bind_done (spanFrom_eq_done.mpr ⟨rfl, rfl⟩), bind_done (spanFrom_eq_done.mpr ⟨rfl, rfl⟩)]
  cases reading <;> rfl

/-- The names of an `open`, up to where no comma follows. -/
theorem names_complete {first : String} {rest : List String}
    (consumed : cursor.Consumes (namesText (first :: rest)) later) (stops : later.kind ≠ .comma) :
    ∃ values, names cursor = .done values later ∧
      values.map Identifier.bare = (first :: rest).map bareName := by
  rw [namesText_cons] at consumed
  let pieces : List (List Terminal × Identifier) :=
    rest.map fun name => ([.mark .comma, .name name], bareName name)
  have others : cursor.advance.Consumes (pieces.map Prod.fst).flatten later := by
    simpa [pieces, Function.comp_def] using consumed.2.2
  have starts : ∀ piece ∈ pieces, ∀ cursor later : Cursor, cursor.Consumes piece.1 later →
      piece.1 ≠ [] ∧ decide (cursor.kind = .comma) = true ∧ True := by
    intro piece member cursor later taken
    obtain ⟨name, -, rfl⟩ := List.mem_map.mp member
    exact ⟨nofun, decide_eq_true (mark_kind taken), trivial⟩
  have each : ∀ piece ∈ pieces, ∀ inner after : Cursor, inner.Consumes piece.1 after → True →
      inner.remaining < cursor.remaining + 1 → ∃ value : Identifier, (do
        let _ ← advance
        identifier : Parser Identifier) inner = .done value after ∧ value.bare = piece.2 := by
    intro piece member inner after taken _ _
    obtain ⟨name, -, rfl⟩ := List.mem_map.mp member
    obtain ⟨_, _, named⟩ := taken
    refine ⟨⟨name, inner.advance.current.span⟩, ?_, rfl⟩
    rw [bind_done advance_complete, identifier_complete named, named.2.2]
  have near : cursor.advance.remaining < cursor.remaining + 1 :=
    Nat.lt_succ_of_le (Cursor.remaining_advance_le cursor)
  obtain ⟨values, ran, same⟩ :=
    many_complete starts each (by simpa using stops) trivial others near
  refine ⟨⟨first, cursor.current.span⟩ :: values, ?_, ?_⟩
  · rw [names, bind_done (identifier_complete consumed), bind_done ran]
    rfl
  · simp only [List.map_cons, same, pieces, List.map_map]
    rfl

theorem reveal_climbs {text : List Terminal} {body : Expr} (climbs : Climbs 1 text body)
    {names : List String} (nonempty : names ≠ []) (level : Nat) :
    Climbs level (.mark .openWord :: .mark .openParen :: text ++ .mark .pipe :: namesText names ++
      [.mark .closeParen]) (.reveal body (names.map bareName) .nowhere) := by
  apply climbs_of_operand
  intro fuel cursor later consumed _ near
  obtain ⟨first, rest, rfl⟩ := List.exists_cons_of_ne_nil nonempty
  obtain ⟨_, moreWord, opening⟩ := id consumed
  obtain ⟨_, moreOpening, inner⟩ := id opening
  have inner : cursor.advance.advance.Consumes
      (text ++ .mark .pipe :: (namesText (first :: rest) ++ [.mark .closeParen])) later := by
    simpa using inner
  obtain ⟨middle, taken, pipe⟩ := Cursor.consumes_append.mp inner
  obtain ⟨last, listed, closes⟩ := Cursor.consumes_append.mp pipe.2.2
  have fewerWord := Cursor.remaining_advance moreWord
  have fewerOpening := Cursor.remaining_advance moreOpening
  have ends := ends_of_kind (mark_kind pipe) (by decide) 0
  obtain ⟨value, ran, same⟩ := climbs.reads .default (by decide) taken ends
    (show cursor.advance.advance.remaining < fuel by omega)
  obtain ⟨values, ranNames, sameNames⟩ :=
    names_complete listed (by rw [mark_kind closes]; nofun)
  refine ⟨.reveal value values (later.spanFrom cursor.current.span.start), ?_, ?_⟩
  · rw [operand_run .reveal (by rw [mark_kind consumed]; rfl), operandBy, reveal,
      bind_done advance_complete, bind_done (expect_complete opening), bind_done ran,
      bind_done (expectFor_complete _ pipe), bind_done ranNames, bind_done (expect_complete closes),
      bind_done (spanFrom_eq_done.mpr ⟨rfl, rfl⟩), closes.2.2]
    rfl
  · rw [Expr.bare, same, sameNames]

/-- A stronger operator on the right is taken by the reader of the right operand, a weaker one by the climb. -/
theorem binary_climbs {operator : Operator} {left right : Expr} {leftText rightText : List Terminal}
    (first : Climbs operator.precedence leftText left)
    (second : Climbs (operator.precedence + 1) rightText right) :
    Climbs operator.precedence (leftText ++ .mark operator.kind :: rightText)
      (.binary operator left right .nowhere) := by
  intro fuel power cursor later above consumed ends near
  obtain ⟨middle, taken, rest⟩ := Cursor.consumes_append.mp consumed
  have bounds := operator.precedence_bounds
  have sign : middle.kind = operator.kind := mark_kind rest
  have rank := operator.rank_powerOf_kind
  have between : Ends operator.precedence middle := by
    refine ⟨?_, ?_, Nat.le_of_eq (by rw [sign, rank])⟩ <;> rw [sign] <;> cases operator <;>
      nofun
  obtain ⟨valueLeft, steps, sameLeft, enough, ran⟩ :=
    first fuel power cursor middle above taken between near
  obtain ⟨steps, rfl⟩ : ∃ fewer, steps = fewer + 1 := ⟨steps - 1, by omega⟩
  have fewer := taken.remaining
  have fewerSign := Cursor.remaining_advance rest.2.1
  have fewerRight := rest.2.2.remaining
  obtain ⟨valueRight, ranRight, sameRight⟩ :=
    second.reads (Table.standard.powerOf operator.kind) (by omega) rest.2.2
      (ends.weaken (by omega)) (show middle.advance.remaining < fuel by omega)
  refine ⟨.binary operator valueLeft valueRight (valueLeft.span.join valueRight.span), steps, ?_,
    by omega, ?_⟩
  · rw [Expr.bare, sameLeft, sameRight]
  · have known : middle.kind.operator? = some operator := by rw [sign, operator.operator?_kind]
    rw [ran, climbWithin_step known (by rw [sign]; omega) (by rw [sign]; exact ranRight)]

end Parser

namespace Grammar

theorem ExprText.climbs {level : Nat} {text : List Terminal} {expr : Expr}
    (spelled : ExprText level text expr) : Climbs level text expr := by
  induction spelled with
  | stronger _ ih =>
    intro fuel power cursor later above consumed ends near
    exact ih fuel power cursor later (by omega) consumed (ends.weaken (by omega)) near
  | binary _ _ first second => exact binary_climbs first second
  | not _ ih => exact not_climbs ih 7
  | int known => exact int_climbs known 8
  | bool => exact bool_climbs _ 8
  | string => exact string_climbs _ 8
  | symbol => exact symbol_climbs _ 8
  | grouping _ ih => exact grouping_climbs ih 8
  | call texts list ih => exact call_climbs ⟨_, _, ih, texts, list⟩ _ 8
  | invoke free texts list ih => exact invoke_climbs ⟨_, _, ih, texts, list⟩ _ _ free 8
  | put inner list ih => exact put_climbs ih inner list _ 8
  | read => exact read_climbs _ _ 8
  | remotePut inner list ih => exact remotePut_climbs ih inner list _ _ 8
  | remoteRead => exact remoteRead_climbs _ _ _ 8
  | reveal _ nonempty ih => exact reveal_climbs ih nonempty 8
  | readInt => exact readInt_climbs 8

end Grammar

/-- An expression is read up to a token that ends it. -/
theorem Parser.expression_complete {cursor later : Cursor} {text : List Terminal} {expr : Expr}
    (spelled : ExprText 1 text expr) (consumed : cursor.Consumes text later) {kind : Kind}
    (found : later.kind = kind) (closes : kind ∈ [Kind.closeParen, .comma, .pipe, .semicolon, .endOfInput]) :
    ∃ value, expression .standard .default cursor = .done value later ∧ value.bare = expr :=
  spelled.climbs.reads .default (by decide) consumed (ends_of_kind found closes 0)
    (by simp only [Cursor.remaining, Cursor.fuel]; omega)

end Multiparty
