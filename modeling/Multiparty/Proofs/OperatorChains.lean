import Mathlib
import Multiparty.Proofs.ProgramReading

/-! Reading operators does not depend on the powers of the language. Whatever powers the operators are given, literals
with operators between them are read up to the first operator that is not above the power asked for. The tree that
comes out is the only one over what is read in which each operator has stronger ones on its right, and none weaker on
its left. -/

namespace Multiparty
open Token

/-- What a token is as an operand by itself. A number has to fit into 64 bits. -/
def Token.literal? (token : Token) : Option Expr :=
  match token.kind with
  | .number => (Text.integer? token.value).map fun value => .int value token.span
  | .string => some (.string token.value token.span)
  | .trueWord => some (.bool true token.span)
  | .falseWord => some (.bool false token.span)
  | _ => none

structure Literal where
  token : Token
  value : Expr
  known : token.literal? = some value

structure Sign where
  token : Token
  operator : Operator
  known : token.kind.operator? = some operator

/-- A literal, and operators each with the literal after it. -/
structure Chain where
  first : Literal
  steps : List (Sign × Literal)

namespace Table

/-- How strongly an operator holds its operands. -/
def strength (table : Table) (operator : Operator) : Nat :=
  (table.powerOf operator.kind).rank

/-- Only operators have powers, any powers at all, and literals are read by the rule for literals. -/
structure Assigns (table : Table) : Prop where
  other : ∀ kind : Kind, kind.operator? = none → table.power kind = none
  literal : ∀ kind ∈ [Kind.number, .string, .trueWord, .falseWord], table.operand kind = some .literal

end Table

namespace Chain

def stepTokens (steps : List (Sign × Literal)) : List Token :=
  steps.flatMap fun step => [step.1.token, step.2.token]

def tokens (chain : Chain) : List Token :=
  chain.first.token :: stepTokens chain.steps

/-- The steps before the first whose operator is not above the power. -/
def stepsAbove (table : Table) (power : Power) (steps : List (Sign × Literal)) : List (Sign × Literal) :=
  steps.takeWhile fun step => power.rank < table.strength step.1.operator

/-- The chain up to the first operator that is not above the power. -/
def upTo (table : Table) (power : Power) (chain : Chain) : Chain :=
  ⟨chain.first, stepsAbove table power chain.steps⟩

end Chain

namespace Expr

/-- The operands and operators of the tree are these tokens, in this order. -/
inductive Spans : Expr → List Token → Prop
  | literal (literal : Literal) : Spans literal.value [literal.token]
  | binary {left right : Expr} {before after : List Token} (sign : Sign) : Spans left before → Spans right after →
    Spans (.binary sign.operator left right (left.span.join right.span)) (before ++ sign.token :: after)

/-- The operators of a tree of operators and operands. -/
def operators : Expr → List Operator
  | .binary operator left right _ => left.operators ++ operator :: right.operators
  | _ => []

/-- Each operator has only operators on its left that hold at least as strongly, and only stronger ones on its right. -/
def Arranged (table : Table) : Expr → Prop
  | .binary operator left right _ =>
    (∀ other ∈ left.operators, table.strength operator ≤ table.strength other) ∧
      (∀ other ∈ right.operators, table.strength operator < table.strength other) ∧
        left.Arranged table ∧ right.Arranged table
  | _ => True

end Expr

/-! Operands and operators by themselves. -/

theorem Literal.cases (literal : Literal) :
    (literal.token.kind = .number ∧ ∃ number, Text.integer? literal.token.value = some number ∧
        literal.value = .int number literal.token.span) ∨
      (literal.token.kind = .string ∧ literal.value = .string literal.token.value literal.token.span) ∨
      (literal.token.kind = .trueWord ∧ literal.value = .bool true literal.token.span) ∨
      (literal.token.kind = .falseWord ∧ literal.value = .bool false literal.token.span) := by
  have known := literal.known
  unfold Token.literal? at known
  split at known
  next kind =>
    obtain ⟨number, digits, value⟩ := Option.map_eq_some_iff.mp known
    exact .inl ⟨kind, number, digits, value.symm⟩
  next kind => exact .inr (.inl ⟨kind, (Option.some.inj known).symm⟩)
  next kind => exact .inr (.inr (.inl ⟨kind, (Option.some.inj known).symm⟩))
  next kind => exact .inr (.inr (.inr ⟨kind, (Option.some.inj known).symm⟩))
  next => cases known

theorem Literal.operator?_eq_none (literal : Literal) : literal.token.kind.operator? = none := by
  rcases literal.cases with ⟨kind, _⟩ | ⟨kind, _⟩ | ⟨kind, _⟩ | ⟨kind, _⟩
  all_goals
    rw [kind]
    rfl

theorem Literal.operators_eq_nil (literal : Literal) : literal.value.operators = [] := by
  rcases literal.cases with ⟨_, _, _, value⟩ | ⟨_, value⟩ | ⟨_, value⟩ | ⟨_, value⟩
  all_goals
    rw [value]
    rfl

theorem Literal.arranged (literal : Literal) (table : Table) : literal.value.Arranged table := by
  rcases literal.cases with ⟨_, _, _, value⟩ | ⟨_, value⟩ | ⟨_, value⟩ | ⟨_, value⟩
  all_goals
    rw [value]
    trivial

theorem Literal.value_eq {first second : Literal} (same : first.token = second.token) :
    first.value = second.value := by
  have known := first.known
  rw [same, second.known] at known
  exact (Option.some.inj known).symm

theorem Sign.operator_eq {first second : Sign} (same : first.token = second.token) :
    first.operator = second.operator := by
  have known := first.known
  rw [same, second.known] at known
  exact (Option.some.inj known).symm

theorem Sign.kind_eq (sign : Sign) : sign.token.kind = sign.operator.kind :=
  Operator.eq_kind sign.known

/-! Trees over a sequence of tokens. -/

namespace Expr
variable {table : Table} {tree other : Expr} {tokens : List Token}

theorem Spans.operators_eq (spans : tree.Spans tokens) :
    tree.operators = tokens.filterMap fun token => token.kind.operator? := by
  induction spans with
  | literal literal =>
    rw [literal.operators_eq_nil, List.filterMap_cons, literal.operator?_eq_none, List.filterMap_nil]
  | binary sign _ _ first second =>
    rw [operators, first, second, List.filterMap_append, List.filterMap_cons, sign.known]

theorem Spans.mem_operators (spans : tree.Spans tokens) {sign : Sign} (among : sign.token ∈ tokens) :
    sign.operator ∈ tree.operators := by
  rw [spans.operators_eq]
  exact List.mem_filterMap.mpr ⟨sign.token, among, sign.known⟩

end Expr

/-- Two items that part the same list are at one place, or each lies beside the other. -/
theorem append_cons_eq_cases {α : Type} {before before' after after' : List α} {item item' : α}
    (same : before ++ item :: after = before' ++ item' :: after') :
    (before = before' ∧ item = item' ∧ after = after') ∨ (item ∈ before' ∧ item' ∈ after) ∨
      (item' ∈ before ∧ item ∈ after') := by
  rcases List.append_eq_append_iff.mp same with ⟨between, rfl, split⟩ | ⟨between, rfl, split⟩
  · cases between with
    | nil =>
      obtain ⟨rfl, rfl⟩ := List.cons.inj split
      exact .inl ⟨(List.append_nil _).symm, rfl, rfl⟩
    | cons next between =>
      obtain ⟨rfl, rfl⟩ := List.cons.inj split
      exact .inr (.inl (by simp))
  · cases between with
    | nil =>
      obtain ⟨rfl, rfl⟩ := List.cons.inj split
      exact .inl ⟨List.append_nil _, rfl, rfl⟩
    | cons next between =>
      obtain ⟨rfl, rfl⟩ := List.cons.inj split
      exact .inr (.inr (by simp))

/-- At most one arranged tree is over a sequence of tokens: the operator at its top is the last of the weakest. -/
theorem Expr.Spans.unique {table : Table} {tree other : Expr} {tokens : List Token} (spans : tree.Spans tokens)
    (arranged : tree.Arranged table) (spansOther : other.Spans tokens) (arrangedOther : other.Arranged table) :
    other = tree := by
  induction spans generalizing other with
  | literal literal =>
    generalize single : [literal.token] = tokens at spansOther
    cases spansOther with
    | literal otherLiteral => exact Literal.value_eq (List.singleton_inj.mp single).symm
    | binary sign =>
      have among : sign.token ∈ [literal.token] := by simp [single]
      have none := literal.operator?_eq_none
      rw [← List.mem_singleton.mp among, sign.known] at none
      cases none
  | @binary left right before after sign spansLeft spansRight ihLeft ihRight =>
    generalize whole : before ++ sign.token :: after = tokens at spansOther
    cases spansOther with
    | literal literal =>
      have among : sign.token ∈ [literal.token] := by simp [← whole]
      have none := literal.operator?_eq_none
      rw [← List.mem_singleton.mp among, sign.known] at none
      cases none
    | @binary left' right' before' after' sign' spansLeft' spansRight' =>
      obtain ⟨atLeast, above, arrangedLeft, arrangedRight⟩ := arranged
      obtain ⟨atLeast', above', arrangedLeft', arrangedRight'⟩ := arrangedOther
      -- if the tops are apart, the one that comes first has the other on its right, which has it on its left
      rcases append_cons_eq_cases whole with ⟨rfl, same, rfl⟩ | ⟨inLeft', inRight⟩ | ⟨inLeft, inRight'⟩
      · rw [ihLeft arrangedLeft spansLeft' arrangedLeft', ihRight arrangedRight spansRight' arrangedRight',
          Sign.operator_eq same]
      · have low := atLeast' _ (spansLeft'.mem_operators inLeft')
        have high := above _ (spansRight.mem_operators inRight)
        omega
      · have low := atLeast _ (spansLeft.mem_operators inLeft)
        have high := above' _ (spansRight'.mem_operators inRight')
        omega

/-! Steps of a chain. -/

namespace Chain
variable {table : Table} {steps : List (Sign × Literal)}

theorem stepTokens_append (first second : List (Sign × Literal)) :
    stepTokens (first ++ second) = stepTokens first ++ stepTokens second :=
  List.flatMap_append

theorem length_le_stepTokens (steps : List (Sign × Literal)) : steps.length ≤ (stepTokens steps).length := by
  induction steps with
  | nil => rfl
  | cons step steps ih =>
    rw [stepTokens, List.flatMap_cons, List.length_append, List.length_cons, ← stepTokens]
    simp only [List.length_cons, List.length_nil]
    omega

theorem filterMap_stepTokens (steps : List (Sign × Literal)) :
    ((stepTokens steps).filterMap fun token => token.kind.operator?) = steps.map fun step => step.1.operator := by
  induction steps with
  | nil => rfl
  | cons step steps ih =>
    rw [stepTokens, List.flatMap_cons, List.filterMap_append, ← stepTokens, ih, List.filterMap_cons, step.1.known,
      List.filterMap_cons, step.2.operator?_eq_none]
    rfl

theorem operators_of_spans {tree : Expr} {first : Literal} (spans : tree.Spans (first.token :: stepTokens steps)) :
    tree.operators = steps.map fun step => step.1.operator := by
  rw [spans.operators_eq, List.filterMap_cons, first.operator?_eq_none, filterMap_stepTokens]

theorem stepsAbove_cons_of_lt {power : Power} {step : Sign × Literal}
    (above : power.rank < table.strength step.1.operator) (steps : List (Sign × Literal)) :
    stepsAbove table power (step :: steps) = step :: stepsAbove table power steps :=
  List.takeWhile_cons_of_pos (by simpa using above)

theorem stepsAbove_cons_of_le {power : Power} {step : Sign × Literal}
    (stops : table.strength step.1.operator ≤ power.rank) (steps : List (Sign × Literal)) :
    stepsAbove table power (step :: steps) = [] :=
  List.takeWhile_cons_of_neg (by simpa using stops)

/-- The steps that a lower power takes are those that a higher one takes, and more after them. -/
theorem stepsAbove_of_le {low high : Power} (higher : low.rank ≤ high.rank) (steps : List (Sign × Literal)) :
    ∃ later, steps = stepsAbove table high steps ++ later ∧
      stepsAbove table low steps = stepsAbove table high steps ++ stepsAbove table low later ∧
      ∀ step ∈ later.head?, table.strength step.1.operator ≤ high.rank := by
  induction steps with
  | nil => exact ⟨[], rfl, rfl, by simp⟩
  | cons step steps ih =>
    by_cases above : high.rank < table.strength step.1.operator
    · obtain ⟨later, split, taken, stops⟩ := ih
      have aboveLow : low.rank < table.strength step.1.operator := Nat.lt_of_le_of_lt higher above
      refine ⟨later, ?_, ?_, stops⟩
      · rw [stepsAbove_cons_of_lt above, List.cons_append, ← split]
      · rw [stepsAbove_cons_of_lt above, stepsAbove_cons_of_lt aboveLow, taken, List.cons_append]
    · have stops := Nat.not_lt.mp above
      refine ⟨step :: steps, ?_, ?_, by simpa using stops⟩
      · rw [stepsAbove_cons_of_le stops, List.nil_append]
      · rw [stepsAbove_cons_of_le stops steps, List.nil_append]

/-- Every operator of a tree over what is read up to a power is above that power. -/
theorem above_of_upTo {power : Power} {chain : Chain} {tree : Expr}
    (spans : tree.Spans (chain.upTo table power).tokens) :
    ∀ operator ∈ tree.operators, power.rank < table.strength operator := by
  intro operator among
  rw [operators_of_spans spans] at among
  obtain ⟨step, taken, rfl⟩ := List.mem_map.mp among
  simpa using List.mem_takeWhile_imp taken

/-- The fuel of a cursor that has the steps ahead is more than there are steps. -/
theorem length_lt_fuel {cursor : Cursor} {before rest : List Token} {next : Token}
    (stream : cursor.current :: cursor.ahead = before ++ (stepTokens steps ++ next :: rest)) :
    steps.length < cursor.fuel := by
  have more := length_le_stepTokens steps
  have same := congrArg List.length stream
  rw [List.length_append, List.length_append, List.length_cons, List.length_cons] at same
  rw [Cursor.fuel]
  omega

end Chain

/-! Reading a chain. -/

namespace Cursor

/-- After as many steps as there are tokens before it, the cursor stands at a token of the stream. -/
theorem stream_skip {cursor : Cursor} {before after : List Token} (more : after ≠ [])
    (stream : cursor.current :: cursor.ahead = before ++ after) :
    (Cursor.advance^[before.length] cursor).current :: (Cursor.advance^[before.length] cursor).ahead = after := by
  induction before generalizing cursor with
  | nil => exact stream
  | cons token before ih =>
    rw [List.length_cons, Function.iterate_succ_apply]
    exact ih (stream_advance (by simp [more]) stream)

end Cursor

namespace Table.Assigns
variable {table : Table} (assigns : table.Assigns)
include assigns

theorem powerOf_other {kind : Kind} (other : kind.operator? = none) : table.powerOf kind = .default := by
  rw [powerOf, assigns.other kind other]
  rfl

theorem literal_kind (literal : Literal) : table.operand literal.token.kind = some .literal := by
  apply assigns.literal
  rcases literal.cases with ⟨kind, _⟩ | ⟨kind, _⟩ | ⟨kind, _⟩ | ⟨kind, _⟩
  all_goals
    rw [kind]
    decide

end Table.Assigns

namespace Parser
open Chain

theorem literal_done {cursor : Cursor} {operand : Literal} (here : cursor.current = operand.token) :
    literal cursor = .done operand.value cursor.advance := by
  rw [literal, bind_done (advance_eq_done.mpr ⟨here, rfl⟩)]
  rcases operand.cases with ⟨kind, number, digits, value⟩ | ⟨kind, value⟩ | ⟨kind, value⟩ | ⟨kind, value⟩
  · rw [kind, value]
    simp only [digits]
    rfl
  all_goals
    rw [kind, value]
    rfl

section
variable {table : Table} {next : Token} {rest : List Token}

/-- The reader gives, for each shorter chain before `next`, an arranged tree over the part of it that it consumes. -/
def ReadsChains (table : Table) (next : Token) (rest : List Token) (read : Power → Parser Expr) (bound : Nat) : Prop :=
  ∀ (power : Power) (chain : Chain) (cursor : Cursor), chain.steps.length < bound →
    cursor.current :: cursor.ahead = chain.tokens ++ next :: rest → ∃ tree,
      read power cursor = .done tree (Cursor.advance^[(chain.upTo table power).tokens.length] cursor) ∧
        tree.Spans (chain.upTo table power).tokens ∧ tree.Arranged table

/-- Operators are being taken: what stands to the left is arranged and spans `before`, and none of its operators is
weaker than the one that comes next, with which the steps that are left begin. -/
structure Partway (table : Table) (next : Token) (rest : List Token) (left : Expr) (before : List Token)
    (steps : List (Sign × Literal)) (cursor : Cursor) : Prop where
  spans : left.Spans before
  arranged : left.Arranged table
  holds : ∀ step ∈ steps.head?, ∀ other ∈ left.operators, table.strength step.1.operator ≤ table.strength other
  stream : cursor.current :: cursor.ahead = stepTokens steps ++ next :: rest

variable {left : Expr} {before : List Token} {step : Sign × Literal} {steps : List (Sign × Literal)} {cursor : Cursor}
  {power : Power} {read : Power → Parser Expr} {bound : Nat}

theorem Partway.kind_eq (partway : Partway table next rest left before (step :: steps) cursor) :
    cursor.kind = step.1.operator.kind := by
  rw [← step.1.kind_eq]
  exact congrArg Token.kind (List.cons.inj partway.stream).1

/-- The reader of the right operand takes the steps whose operators are above the one that is taken, so that the next
is no stronger than it. -/
theorem Partway.taking (partway : Partway table next rest left before (step :: steps) cursor)
    (reads : ReadsChains table next rest read bound) (fewer : steps.length < bound)
    (above : power.rank < table.strength step.1.operator) : ∃ value within later,
      let after := Cursor.advance^[(stepTokens (step :: within)).length] cursor
      (∀ fuel, climbWithin read table power (fuel + 1) left cursor = climbWithin read table power fuel value after) ∧
        steps = within ++ later ∧
        stepsAbove table power (step :: steps) = step :: within ++ stepsAbove table power later ∧
        Partway table next rest value (before ++ stepTokens (step :: within)) later after := by
  have here := partway.kind_eq
  have strength : (table.powerOf cursor.kind).rank = table.strength step.1.operator := by rw [here, Table.strength]
  have operand : cursor.advance.current :: cursor.advance.ahead = (Chain.mk step.2 steps).tokens ++ next :: rest :=
    Cursor.stream_advance (by simp [Chain.tokens]) partway.stream
  obtain ⟨right, ran, spansRight, arrangedRight⟩ := reads (table.powerOf cursor.kind) _ _ fewer operand
  obtain ⟨later, split, taken, stops⟩ :=
    @stepsAbove_of_le table power (table.powerOf cursor.kind) (by omega) steps
  rw [strength] at stops
  have stronger := above_of_upTo spansRight
  rw [strength] at stronger
  have weaker := partway.holds step rfl
  have sign : cursor.kind.operator? = some step.1.operator := by rw [here, Operator.operator?_kind]
  refine ⟨.binary step.1.operator left right (left.span.join right.span), _, later, ?ran, split, ?taken, ?spans,
    ⟨weaker, stronger, partway.arranged, arrangedRight⟩, ?holds, ?stream⟩
  case ran => exact fun fuel => climbWithin_step sign (by rwa [strength]) ran
  case taken => rw [stepsAbove_cons_of_lt above, taken, List.cons_append]
  case spans => exact .binary step.1 partway.spans spansRight
  case holds =>
    intro following begins other among
    have weak := stops following begins
    rcases List.mem_append.mp among with onLeft | onRight
    · exact Nat.le_trans weak (weaker other onLeft)
    · rcases List.mem_cons.mp onRight with rfl | onRight
      · exact weak
      · exact Nat.le_trans weak (Nat.le_of_lt (stronger other onRight))
  case stream =>
    refine Cursor.stream_skip (by simp) ?_
    rw [partway.stream, ← List.append_assoc, ← stepTokens_append, List.cons_append, ← split]

/-- The climb ends where no operator above the power comes next. -/
theorem Partway.stop (partway : Partway table next rest left before steps cursor)
    (stops : (table.powerOf cursor.kind).rank ≤ power.rank) (none : stepsAbove table power steps = []) (fuel : Nat) :
    ∃ tree, climbWithin read table power (fuel + 1) left cursor =
        .done tree (Cursor.advance^[(stepTokens (stepsAbove table power steps)).length] cursor) ∧
      tree.Spans (before ++ stepTokens (stepsAbove table power steps)) ∧ tree.Arranged table := by
  rw [none, show stepTokens [] = [] from rfl, List.append_nil]
  exact ⟨left, climbWithin_stop stops left, partway.spans, partway.arranged⟩

/-- Operators above the power are taken one after the other, and no others. -/
theorem climbWithin_chain (assigns : table.Assigns) (ended : next.kind.operator? = none)
    (reads : ReadsChains table next rest read bound) {fuel : Nat} (short : steps.length ≤ bound)
    (enough : steps.length < fuel) (partway : Partway table next rest left before steps cursor) : ∃ tree,
      climbWithin read table power fuel left cursor =
          .done tree (Cursor.advance^[(stepTokens (stepsAbove table power steps)).length] cursor) ∧
        tree.Spans (before ++ stepTokens (stepsAbove table power steps)) ∧ tree.Arranged table := by
  -- the power stays the same, and `Partway` is what each operator that is taken keeps
  induction fuel generalizing steps left before cursor with
  | zero => omega
  | succ fuel ih =>
    cases steps with
    | nil =>
      have here : cursor.kind = next.kind := congrArg Token.kind (List.cons.inj partway.stream).1
      refine partway.stop ?_ rfl fuel
      rw [here, assigns.powerOf_other ended]
      exact Nat.zero_le _
    | cons step steps =>
      rw [List.length_cons] at short enough
      by_cases above : power.rank < table.strength step.1.operator
      · obtain ⟨value, within, later, goesOn, split, taken, partway⟩ :=
          partway.taking reads (by omega) above
        have fewer : steps.length = within.length + later.length := by rw [split, List.length_append]
        obtain ⟨tree, ran, spans, arranged⟩ := ih (by omega) (by omega) partway
        rw [goesOn, taken, stepTokens_append]
        refine ⟨tree, ?_, ?_, arranged⟩
        · rw [ran, ← Function.iterate_add_apply, List.length_append, Nat.add_comm]
        · rwa [← List.append_assoc]
      · have stops := Nat.not_lt.mp above
        refine partway.stop ?_ (stepsAbove_cons_of_le stops steps) fuel
        rwa [partway.kind_eq, ← Table.strength]

/-- With fuel for as many operands, the reader of expressions reads chains. -/
theorem expressionWithin_chain (assigns : table.Assigns) (ended : next.kind.operator? = none) (fuel : Nat) :
    ReadsChains table next rest (expressionWithin table fuel) fuel := by
  induction fuel with
  | zero =>
    intro _ chain _ fewer
    exact absurd fewer (Nat.not_lt_zero _)
  | succ fuel ih =>
    intro power chain cursor fewer stream
    have here : cursor.current = chain.first.token := (List.cons.inj stream).1
    have rule : table.operand cursor.kind = some .literal := by
      rw [Cursor.kind, here]
      exact assigns.literal_kind chain.first
    have ahead : cursor.advance.current :: cursor.advance.ahead = stepTokens chain.steps ++ next :: rest :=
      Cursor.stream_advance (by simp) stream
    have partway : Partway table next rest chain.first.value [chain.first.token] chain.steps cursor.advance := by
      refine ⟨.literal chain.first, chain.first.arranged table, ?_, ahead⟩
      intro _ _ other among
      rw [chain.first.operators_eq_nil] at among
      cases among
    obtain ⟨tree, ran, spans, arranged⟩ :=
      climbWithin_chain assigns ended ih (Nat.le_of_lt_succ fewer) (@length_lt_fuel _ _ [] _ _ ahead) partway
    refine ⟨tree, ?_, spans, arranged⟩
    rw [expressionWithin, bind_done ((operand_run .literal rule).trans (literal_done here)), climb, ran]
    rfl

end
end Parser

/-! Assignments of powers. -/

namespace Table

/-- The operands of the language, and no operators. -/
def unassigned : Table :=
  { standard with power := fun _ => none }

theorem assigns_unassigned : unassigned.Assigns :=
  ⟨fun _ _ => rfl, by decide⟩

/-- The powers of the language are one choice of many. -/
theorem assigns_standard : standard.Assigns := by
  refine ⟨?_, by decide⟩
  intro kind other
  cases kind
  all_goals first
    | rfl
    | cases other

/-- An operator may be given any power, whatever the powers of the others are. -/
theorem Assigns.withPower {table : Table} (assigns : table.Assigns) (operator : Operator) (power : Power) :
    (table.withPower operator.kind power).Assigns := by
  refine ⟨?_, assigns.literal⟩
  intro kind other
  have different : kind ≠ operator.kind := by
    rintro rfl
    rw [operator.operator?_kind] at other
    cases other
  simp only [Table.withPower, if_neg different, assigns.other kind other]

end Table

/-- Whatever powers the operators are given, a chain of literals is read up to the first operator that is not above
the power, and the tree is the only one over what is read that is arranged by those powers. -/
theorem Parser.expression_chain {table : Table} (assigns : table.Assigns) (power : Power) (chain : Chain)
    {next : Token} (rest : List Token) (ended : next.kind.operator? = none) {cursor : Cursor}
    (stream : cursor.current :: cursor.ahead = chain.tokens ++ next :: rest) : ∃ tree,
      expression table power cursor = .done tree (Cursor.advance^[(chain.upTo table power).tokens.length] cursor) ∧
        tree.Spans (chain.upTo table power).tokens ∧ tree.Arranged table ∧
        ∀ other : Expr, other.Spans (chain.upTo table power).tokens → other.Arranged table → other = tree := by
  have enough : chain.steps.length < cursor.fuel := @Chain.length_lt_fuel _ _ [chain.first.token] _ _ stream
  obtain ⟨tree, ran, spans, arranged⟩ :=
    expressionWithin_chain assigns ended cursor.fuel power chain cursor enough stream
  exact ⟨tree, ran, spans, arranged, fun _ spansOther => spans.unique arranged spansOther⟩

/-- With sums that hold their operands more strongly than products and differences do, and no power for remainders,
`1 * 2 + 3 - true % "x"` is read up to the `%`. -/
theorem Parser.expression_chain_reversed :
    let sums := Table.unassigned.withPower .plus .multiplicative
    let table := (sums.withPower .star .additive).withPower .dash .additive
    let token (kind : Kind) (value : String) : Token := ⟨kind, value, .nowhere⟩
    let cursor : Cursor := ⟨⟨0, ""⟩, token .number "1", [token .star "*", token .number "2", token .plus "+",
      token .number "3", token .dash "-", token .trueWord "true", token .percent "%", token .string "x",
      token .semicolon ";"]⟩
    let product : Expr := .binary .multiply (.int 1 .nowhere)
      (.binary .add (.int 2 .nowhere) (.int 3 .nowhere) .nowhere) .nowhere
    expression table .or cursor =
      .done (.binary .subtract product (.bool true .nowhere) .nowhere) (Cursor.advance^[7] cursor) := by
  intro sums table token cursor product
  have assigns : table.Assigns :=
    ((Table.assigns_unassigned.withPower .add _).withPower .multiply _).withPower .subtract _
  let one : Literal := ⟨token .number "1", .int 1 .nowhere, by cbv⟩
  let two : Literal := ⟨token .number "2", .int 2 .nowhere, by cbv⟩
  let three : Literal := ⟨token .number "3", .int 3 .nowhere, by cbv⟩
  let yes : Literal := ⟨token .trueWord "true", .bool true .nowhere, rfl⟩
  let text : Literal := ⟨token .string "x", .string "x" .nowhere, rfl⟩
  let times : Sign := ⟨token .star "*", .multiply, rfl⟩
  let plus : Sign := ⟨token .plus "+", .add, rfl⟩
  let minus : Sign := ⟨token .dash "-", .subtract, rfl⟩
  let rest : Sign := ⟨token .percent "%", .modulo, rfl⟩
  let chain : Chain := ⟨one, [(times, two), (plus, three), (minus, yes), (rest, text)]⟩
  have ended : (token .semicolon ";").kind.operator? = none := rfl
  have stream : cursor.current :: cursor.ahead = chain.tokens ++ token .semicolon ";" :: [] := rfl
  obtain ⟨tree, ran, -, -, unique⟩ := expression_chain assigns .or chain [] ended stream
  have spans : (Expr.binary .subtract product (.bool true .nowhere) .nowhere).Spans (chain.upTo table .or).tokens :=
    .binary minus (.binary times (.literal one) (.binary plus (.literal two) (.literal three))) (.literal yes)
  have arranged : (Expr.binary .subtract product (.bool true .nowhere) .nowhere).Arranged table :=
    ⟨by decide, by decide, ⟨by decide, by decide, trivial, ⟨by decide, by decide, trivial, trivial⟩⟩, trivial⟩
  have taken : (chain.upTo table .or).tokens.length = 7 := rfl
  rw [taken] at ran
  rw [unique _ spans arranged, ran]

end Multiparty
