import Multiparty.Parsing.Progress
import Multiparty.Proofs.FaultPlaces

/-! What a tree and a failure owe to the tokens they were read from. A reader that fails blames a token of the stream,
and one that succeeds has built nodes and names that start at tokens of the stream: at tokens that can begin
something within a part. -/

namespace Multiparty

/-- The token that a diagnostic of the parser quotes. -/
def Cause.token? : Cause → Option String
  | .unexpected token | .unexpectedFor token _ | .numberRange token => some token
  | .unrecognised _ | .violation _ => none

/-- The diagnostic quotes the token and stands at its start. -/
def Diagnostic.Blames (diagnostic : Diagnostic) (token : Token) : Prop :=
  diagnostic.cause.token? = some token.value ∧ diagnostic.position = token.span.start

namespace Token

/-- Neither the end of the input nor the word that begins a part. -/
def Kind.Inner (kind : Kind) : Prop :=
  kind ≠ .endOfInput ∧ kind ≠ .declareWord

instance (kind : Kind) : Decidable kind.Inner :=
  inferInstanceAs (Decidable (_ ∧ _))

theorem Kind.inner_of_type? {kind : Kind} {type : Ty} (found : kind.type? = some type) : kind.Inner := by
  constructor <;> rintro rfl <;> cases found

/-- Something within a part can begin there. -/
def Starts (stream : List Token) (place : Position) : Prop :=
  ∃ token ∈ stream, token.kind.Inner ∧ token.span.start = place

/-- Each of the spans starts where something within a part can begin. -/
def Placed (stream : List Token) (spans : List Span) : Prop :=
  ∀ span ∈ spans, Starts stream span.start

/-- The name was read from a token. -/
def Names (stream : List Token) (name : Identifier) : Prop :=
  ∃ token ∈ stream, token.kind = .identifier ∧ name = ⟨token.value, token.span⟩

section
variable {stream : List Token}

@[simp] theorem placed_nil : Placed stream [] :=
  nofun

@[simp] theorem placed_cons {span : Span} {spans : List Span} :
    Placed stream (span :: spans) ↔ Starts stream span.start ∧ Placed stream spans :=
  List.forall_mem_cons

@[simp] theorem placed_append {first second : List Span} :
    Placed stream (first ++ second) ↔ Placed stream first ∧ Placed stream second :=
  List.forall_mem_append

@[simp] theorem placed_flatMap {α : Type} {items : List α} {spans : α → List Span} :
    Placed stream (items.flatMap spans) ↔ ∀ item ∈ items, Placed stream (spans item) := by
  simp only [Placed, List.mem_flatMap]
  exact ⟨fun placed item among span inside => placed span ⟨item, among, inside⟩,
    fun placed span ⟨item, among, inside⟩ => placed item among span inside⟩

@[simp] theorem placed_map {α : Type} {items : List α} {span : α → Span} :
    Placed stream (items.map span) ↔ ∀ item ∈ items, Starts stream (span item).start :=
  List.forall_mem_map

theorem Names.starts {name : Identifier} (named : Names stream name) : Starts stream name.span.start := by
  obtain ⟨token, among, here, rfl⟩ := named
  exact ⟨token, among, here ▸ by decide, rfl⟩

end

end Token

/-- The rules begin at tokens that stand within parts. -/
structure Table.Inner (table : Table) : Prop where
  operand : ∀ {kind : Token.Kind} {rule : OperandRule}, table.operand kind = some rule → kind.Inner
  statement : ∀ {kind : Token.Kind} {rule : StatementRule}, table.statement kind = some rule → kind.Inner

theorem Table.standard_inner : Table.standard.Inner where
  operand {kind rule} found := by constructor <;> rintro rfl <;> cases found
  statement {kind rule} found := by constructor <;> rintro rfl <;> cases found

namespace Cursor
open Token

/-- The tokens that are left belong to the stream. -/
def Within (stream : List Token) (cursor : Cursor) : Prop :=
  cursor.current :: cursor.ahead ⊆ stream

section
variable {stream : List Token} {cursor : Cursor}

theorem Within.current (within : cursor.Within stream) : cursor.current ∈ stream :=
  within List.mem_cons_self

theorem Within.advance (within : cursor.Within stream) : cursor.advance.Within stream := by
  obtain ⟨behind, current, ahead⟩ := cursor
  cases ahead with
  | nil => exact within
  | cons next rest => exact List.Subset.trans (List.subset_cons_self _ _) within

theorem Within.starts (within : cursor.Within stream) (inner : cursor.kind.Inner) :
    Starts stream cursor.position :=
  ⟨cursor.current, within.current, inner, rfl⟩

theorem Within.startsAt {kind : Kind} (within : cursor.Within stream) (here : cursor.kind = kind)
    (inner : kind.Inner) : Starts stream cursor.position :=
  within.starts (here ▸ inner)

end

end Cursor

namespace Outcome
open Token

/-- A value is good and the rest of the tokens are in the stream. A failure blames a token of the stream. -/
inductive Anchored {α : Type} (stream : List Token) (good : α → Prop) : Outcome α → Prop
  | done {value : α} {next : Cursor} : next.Within stream → good value → Anchored stream good (.done value next)
  | failed {diagnostic : Diagnostic} {stopped : Cursor} {token : Token} : token ∈ stream →
    diagnostic.Blames token → Anchored stream good (.failed diagnostic stopped)
  | exhausted : Anchored stream good .exhausted

theorem Anchored.mono {α : Type} {stream : List Token} {good better : α → Prop} {outcome : Outcome α}
    (anchored : outcome.Anchored stream good) (implied : ∀ value, good value → better value) :
    outcome.Anchored stream better := by
  cases anchored with
  | done within holds => exact .done within (implied _ holds)
  | failed among blames => exact .failed among blames
  | exhausted => exact .exhausted

end Outcome

namespace Parser
open Token

section
variable {α β : Type} {stream : List Token} {cursor : Cursor} {good better : α → Prop} {result : β → Prop}

/-- What the parser returns at the cursor is good or blames a token. -/
def Reads (stream : List Token) (cursor : Cursor) (good : α → Prop) (parser : Parser α) : Prop :=
  (parser cursor).Anchored stream good

theorem Reads.mono {parser : Parser α} (reads : parser.Reads stream cursor good)
    (implied : ∀ value, good value → better value) : parser.Reads stream cursor better :=
  Outcome.Anchored.mono reads implied

theorem Reads.bind {parser : Parser α} {next : α → Parser β} (first : parser.Reads stream cursor good)
    (second : ∀ value after, after.Within stream → good value → (next value).Reads stream after result) :
    (parser >>= next).Reads stream cursor result := by
  simp only [Reads, Bind.bind] at first ⊢
  generalize parser cursor = outcome at first ⊢
  cases first with
  | done within holds => exact second _ _ within holds
  | failed among blames => exact .failed among blames
  | exhausted => exact .exhausted

theorem pure_reads {value : α} (within : cursor.Within stream) (holds : good value) :
    (pure value : Parser α).Reads stream cursor good :=
  .done within holds

theorem unexpected_reads (within : cursor.Within stream) :
    (unexpected : Parser α).Reads stream cursor good :=
  .failed within.current ⟨rfl, rfl⟩

theorem unexpectedFor_reads {reason : String} (within : cursor.Within stream) :
    (unexpectedFor reason : Parser α).Reads stream cursor good :=
  .failed within.current ⟨rfl, rfl⟩

theorem kind_bind_reads {next : Kind → Parser α} (seen : (next cursor.kind).Reads stream cursor good) :
    (kind >>= next).Reads stream cursor good :=
  seen

theorem kindAhead_bind_reads {distance : Nat} {next : Kind → Parser α}
    (seen : ∀ kind, (next kind).Reads stream cursor good) :
    (kindAhead distance >>= next).Reads stream cursor good :=
  seen _

theorem position_bind_reads {next : Position → Parser α}
    (seen : (next cursor.position).Reads stream cursor good) :
    (position >>= next).Reads stream cursor good :=
  seen

theorem spanFrom_bind_reads {place : Position} {next : Span → Parser α}
    (seen : ∀ span : Span, span.start = place → (next span).Reads stream cursor good) :
    (spanFrom place >>= next).Reads stream cursor good :=
  seen _ rfl

theorem advance_bind_reads {next : Token → Parser α} (within : cursor.Within stream)
    (taken : cursor.advance.Within stream → (next cursor.current).Reads stream cursor.advance good) :
    (advance >>= next).Reads stream cursor good :=
  taken within.advance

/-- A token of the wanted kind is taken. Any other is blamed, in whatever words. -/
theorem taken_bind_reads {wanted : Kind} {refusal : Parser Token} {next : Token → Parser α}
    (within : cursor.Within stream) (blames : refusal.Reads stream cursor fun _ => False)
    (met : cursor.kind = wanted → cursor.advance.Within stream →
      (next cursor.current).Reads stream cursor.advance good) :
    ((fun cursor => if cursor.kind = wanted then advance cursor else refusal cursor : Parser Token) >>=
      next).Reads stream cursor good := by
  by_cases here : cursor.kind = wanted
  · simp only [Reads, Bind.bind, if_pos here]
    exact met here within.advance
  · refine Reads.bind ?_ fun _ _ _ => False.elim
    simpa only [Reads, if_neg here] using blames

theorem expect_bind_reads {wanted : Kind} {next : Token → Parser α} (within : cursor.Within stream)
    (met : cursor.kind = wanted → cursor.advance.Within stream →
      (next cursor.current).Reads stream cursor.advance good) :
    (expect wanted >>= next).Reads stream cursor good :=
  taken_bind_reads within (unexpected_reads within) met

theorem expectFor_bind_reads {wanted : Kind} {reason : String} {next : Token → Parser α}
    (within : cursor.Within stream)
    (met : cursor.kind = wanted → cursor.advance.Within stream →
      (next cursor.current).Reads stream cursor.advance good) :
    (expectFor wanted reason >>= next).Reads stream cursor good :=
  taken_bind_reads within (unexpectedFor_reads within) met

theorem require_bind_reads {holds : Cursor → Bool} {reason : String} {next : Unit → Parser α}
    (within : cursor.Within stream) (met : (next ()).Reads stream cursor good) :
    (require holds reason >>= next).Reads stream cursor good := by
  simp only [Reads, Bind.bind, require]
  by_cases here : holds cursor
  · rw [if_pos here]
    exact met
  · rw [if_neg here]
    exact unexpectedFor_reads within

theorem manyWithin_reads {continues : Cursor → Bool} {item : Parser α}
    (each : ∀ cursor : Cursor, cursor.Within stream → continues cursor = true → item.Reads stream cursor good)
    (fuel : Nat) (within : cursor.Within stream) :
    (manyWithin continues item fuel).Reads stream cursor fun items => ∀ item ∈ items, good item := by
  induction fuel generalizing cursor with
  | zero => exact .exhausted
  | succ fuel ih =>
    simp only [Reads, manyWithin]
    split
    next more =>
      exact (each cursor within more).bind fun _ _ within holds =>
        (ih within).bind fun _ _ within others =>
          pure_reads within (List.forall_mem_cons.mpr ⟨holds, others⟩)
    next => exact .done within (List.forall_mem_nil _)

theorem many_reads {continues : Cursor → Bool} {item : Parser α}
    (each : ∀ cursor : Cursor, cursor.Within stream → continues cursor = true → item.Reads stream cursor good)
    (within : cursor.Within stream) :
    (many continues item).Reads stream cursor fun items => ∀ item ∈ items, good item :=
  manyWithin_reads each cursor.fuel within

theorem separator_reads {reason : String} (within : cursor.Within stream) :
    (separator reason).Reads stream cursor fun _ => True := by
  refine kind_bind_reads ?_
  split
  next => exact pure_reads within trivial
  next => exact expectFor_bind_reads within fun _ within => pure_reads within trivial

theorem commaSeparated_reads {item : Parser α} {reason : String}
    (each : ∀ cursor : Cursor, cursor.Within stream → item.Reads stream cursor good)
    (within : cursor.Within stream) :
    (commaSeparated item reason).Reads stream cursor fun items => ∀ item ∈ items, good item :=
  expect_bind_reads within fun _ within =>
    (many_reads (fun cursor within _ =>
      (each cursor within).bind fun _ _ within holds =>
        (separator_reads within).bind fun _ _ within _ => pure_reads within holds) within).bind
      fun _ _ within holds => expect_bind_reads within fun _ within => pure_reads within holds

/-- What the parser builds has the given spans, all of them placed, and the first token it reads stands within a
part. -/
def Places (stream : List Token) (spans : α → List Span) (parser : Parser α) : Prop :=
  ∀ cursor : Cursor, cursor.Within stream →
    parser.Reads stream cursor fun value => Placed stream (spans value) ∧ Starts stream cursor.position

end

section
variable {stream : List Token} {cursor : Cursor}

theorem identifier_reads (within : cursor.Within stream) :
    identifier.Reads stream cursor fun name =>
      Token.Names stream name ∧ Starts stream cursor.position :=
  expectFor_bind_reads within fun here advanced =>
    pure_reads advanced ⟨⟨cursor.current, within.current, here, rfl⟩, within.startsAt here (by decide)⟩

theorem literal_reads (within : cursor.Within stream) (inner : cursor.kind.Inner) :
    literal.Reads stream cursor fun expr => Placed stream expr.spans := by
  have starts : Starts stream cursor.current.span.start := within.starts inner
  refine advance_bind_reads within fun advanced => ?_
  split
  next =>
    split
    next => exact pure_reads advanced (by simpa [Expr.spans] using starts)
    next => exact .failed within.current ⟨rfl, rfl⟩
  next => exact pure_reads advanced (by simpa [Expr.spans] using starts)
  next => exact pure_reads advanced (by simpa [Expr.spans] using starts)
  next => exact pure_reads advanced (by simpa [Expr.spans] using starts)
  next => exact .failed within.current ⟨rfl, rfl⟩

theorem readInt_reads (within : cursor.Within stream) (inner : cursor.kind.Inner) :
    readInt.Reads stream cursor fun expr => Placed stream expr.spans := by
  have starts : Starts stream cursor.current.span.start := within.starts inner
  refine advance_bind_reads within fun within => ?_
  refine expect_bind_reads within fun _ within => ?_
  refine expectFor_bind_reads within fun _ within => ?_
  refine spanFrom_bind_reads fun span begins => ?_
  exact pure_reads within (by simpa [Expr.spans, begins] using starts)

theorem names_reads (within : cursor.Within stream) :
    names.Reads stream cursor fun names => Placed stream (names.map Identifier.span) := by
  refine (identifier_reads within).bind fun first _ within ⟨named, _⟩ => ?_
  have next (cursor : Cursor) (within : cursor.Within stream) : (do
      let _ ← advance
      identifier : Parser Identifier).Reads stream cursor fun name => Starts stream name.span.start :=
    advance_bind_reads within fun within => (identifier_reads within).mono fun _ ⟨named, _⟩ => named.starts
  refine (many_reads (fun cursor within _ => next cursor within) within).bind fun rest _ within others => ?_
  exact pure_reads within (by simpa using ⟨named.starts, others⟩)

section
variable {expression : Power → Parser Expr}

theorem negation_reads (inner : ∀ power, (expression power).Places stream Expr.spans)
    (within : cursor.Within stream) (begins : cursor.kind.Inner) :
    (negation expression).Reads stream cursor fun expr => Placed stream expr.spans := by
  have starts : Starts stream cursor.current.span.start := within.starts begins
  refine advance_bind_reads within fun within => ?_
  refine (inner .unary _ within).bind fun operand _ within ⟨placed, _⟩ => ?_
  exact pure_reads within (by simp [Expr.spans, starts, placed])

theorem grouping_reads (inner : ∀ power, (expression power).Places stream Expr.spans)
    (within : cursor.Within stream) :
    (grouping expression).Reads stream cursor fun expr => Placed stream expr.spans := by
  refine advance_bind_reads within fun within => ?_
  refine (inner .default _ within).bind fun body _ within ⟨placed, _⟩ => ?_
  exact expect_bind_reads within fun _ within => pure_reads within placed

theorem reveal_reads (inner : ∀ power, (expression power).Places stream Expr.spans)
    (within : cursor.Within stream) (begins : cursor.kind.Inner) :
    (reveal expression).Reads stream cursor fun expr => Placed stream expr.spans := by
  have starts : Starts stream cursor.current.span.start := within.starts begins
  refine advance_bind_reads within fun within => ?_
  refine expect_bind_reads within fun _ within => ?_
  refine (inner .default _ within).bind fun body _ within ⟨placed, _⟩ => ?_
  refine expectFor_bind_reads within fun _ within => ?_
  refine (names_reads within).bind fun opened _ within named => ?_
  refine expect_bind_reads within fun _ within => ?_
  refine spanFrom_bind_reads fun span begins => ?_
  exact pure_reads within (by simpa [Expr.spans, begins, starts, placed] using named)

theorem arguments_reads (inner : ∀ power, (expression power).Places stream Expr.spans)
    (within : cursor.Within stream) :
    (arguments expression).Reads stream cursor fun values => Placed stream (allExprSpans values) :=
  (commaSeparated_reads (fun cursor within => (inner .default cursor within).mono fun _ placed => placed.1)
    within).mono fun values placed => by simpa [allExprSpans_eq] using placed

theorem remoteOperation_reads (inner : ∀ power, (expression power).Places stream Expr.spans)
    {target tunnel : Identifier} (targeted : Token.Names stream target) (named : Token.Names stream tunnel)
    (within : cursor.Within stream) :
    (remoteOperation expression target tunnel).Reads stream cursor fun expr => Placed stream expr.spans := by
  refine (identifier_reads within).bind fun operation _ within ⟨operated, _⟩ => ?_
  refine (arguments_reads inner within).bind fun values _ within placed => ?_
  refine spanFrom_bind_reads fun callSpan callBegins => ?_
  refine spanFrom_bind_reads fun span begins => ?_
  split
  next =>
    rw [allExprSpans_eq, List.flatMap_singleton] at placed
    exact pure_reads within (by simp [Expr.spans, begins, callBegins, targeted.starts, named.starts, placed])
  next => exact pure_reads within (by simp [Expr.spans, begins, callBegins, targeted.starts, named.starts])
  next => exact pure_reads within (by simp [Expr.spans, begins, callBegins, targeted.starts, named.starts])
  next =>
    -- the name of the operation is behind the cursor by now
    obtain ⟨token, among, -, rfl⟩ := operated
    exact .failed among ⟨rfl, rfl⟩

theorem memberCall_reads (inner : ∀ power, (expression power).Places stream Expr.spans)
    {first second : Identifier} (targeted : Token.Names stream first) (named : Token.Names stream second)
    (within : cursor.Within stream) :
    (memberCall expression first second).Reads stream cursor fun expr => Placed stream expr.spans := by
  refine (arguments_reads inner within).bind fun values _ within placed => ?_
  refine spanFrom_bind_reads fun callSpan callBegins => ?_
  refine spanFrom_bind_reads fun span begins => ?_
  split
  next =>
    split
    next =>
      rw [allExprSpans_eq, List.flatMap_singleton] at placed
      exact pure_reads within (by simp [Expr.spans, begins, targeted.starts, placed])
    next => exact pure_reads within (by simp [Expr.spans, begins, targeted.starts])
    next => exact pure_reads within (by simp [Expr.spans, begins, targeted.starts])
    next =>
      obtain ⟨token, among, -, rfl⟩ := named
      exact .failed among ⟨rfl, rfl⟩
  next =>
    exact pure_reads within (by simpa [Expr.spans, begins, callBegins, targeted.starts, named.starts] using placed)

theorem named_reads (inner : ∀ power, (expression power).Places stream Expr.spans)
    (within : cursor.Within stream) :
    (named expression).Reads stream cursor fun expr => Placed stream expr.spans := by
  refine (identifier_reads within).bind fun first _ within ⟨targeted, _⟩ => ?_
  refine kind_bind_reads ?_
  split
  next =>
    refine (arguments_reads inner within).bind fun values _ within placed => ?_
    refine spanFrom_bind_reads fun span begins => ?_
    exact pure_reads within (by simpa [Expr.spans, begins, targeted.starts] using placed)
  next =>
    refine advance_bind_reads within fun within => ?_
    refine (identifier_reads within).bind fun second _ within ⟨named, _⟩ => ?_
    refine kind_bind_reads ?_
    split
    next => exact advance_bind_reads within fun within => remoteOperation_reads inner targeted named within
    next => exact memberCall_reads inner targeted named within
  next => exact pure_reads within (by simpa [Expr.spans] using targeted.starts)

theorem operandBy_reads (inner : ∀ power, (expression power).Places stream Expr.spans) (rule : OperandRule)
    (within : cursor.Within stream) (begins : cursor.kind.Inner) :
    (operandBy expression rule).Reads stream cursor fun expr => Placed stream expr.spans := by
  cases rule with
  | literal => exact literal_reads within begins
  | identifier => exact named_reads inner within
  | negation => exact negation_reads inner within begins
  | grouping => exact grouping_reads inner within
  | readInt => exact readInt_reads within begins
  | reveal => exact reveal_reads inner within begins

variable {table : Table}

theorem operand_places (apart : table.Inner) (inner : ∀ power, (expression power).Places stream Expr.spans) :
    (operand expression table).Places stream Expr.spans := by
  intro cursor within
  refine kind_bind_reads ?_
  split
  next rule found =>
    have begins := apart.operand found
    exact (operandBy_reads inner rule within begins).mono fun _ placed => ⟨placed, within.starts begins⟩
  next => exact unexpected_reads within

theorem binary_reads (inner : ∀ power, (expression power).Places stream Expr.spans) {left : Expr}
    (before : Placed stream left.spans) (power : Power) (within : cursor.Within stream) :
    (binary expression left power).Reads stream cursor fun expr => Placed stream expr.spans := by
  refine kind_bind_reads ?_
  split
  next =>
    refine advance_bind_reads within fun within => ?_
    refine (inner power _ within).bind fun right _ within ⟨placed, _⟩ => ?_
    -- the whole starts where its left operand does
    have starts : Starts stream left.span.start := before _ left.span_mem_spans
    exact pure_reads within (by simp [Expr.spans, Span.join, starts, before, placed])
  next => exact unexpected_reads within

theorem climbWithin_reads (inner : ∀ power, (expression power).Places stream Expr.spans) (power : Power)
    (fuel : Nat) {left : Expr} (before : Placed stream left.spans) (within : cursor.Within stream) :
    (climbWithin expression table power fuel left).Reads stream cursor fun expr => Placed stream expr.spans := by
  induction fuel generalizing left cursor with
  | zero => exact .exhausted
  | succ fuel ih =>
    refine kind_bind_reads ?_
    dsimp only
    split
    next => exact pure_reads within before
    next => exact (binary_reads inner before _ within).bind fun taken _ within placed => ih placed within

end

section
variable {table : Table}

theorem expressionWithin_places (apart : table.Inner) (fuel : Nat) (power : Power) :
    (expressionWithin table fuel power).Places stream Expr.spans := by
  induction fuel generalizing power with
  | zero => exact fun _ _ => .exhausted
  | succ fuel ih =>
    intro cursor within
    -- the first operand decides where the expression starts, whatever follows it
    refine (operand_places apart ih cursor within).bind fun left after within ⟨placed, starts⟩ => ?_
    exact Reads.mono (climbWithin_reads ih power after.fuel placed within) fun _ placed => ⟨placed, starts⟩

theorem expression_places (apart : table.Inner) (power : Power) :
    (expression table power).Places stream Expr.spans :=
  fun cursor within => expressionWithin_places apart cursor.fuel power cursor within

theorem type_reads (within : cursor.Within stream) :
    type.Reads stream cursor fun _ => Starts stream cursor.position := by
  refine kind_bind_reads ?_
  split
  next found =>
    exact advance_bind_reads within fun advanced =>
      pure_reads advanced (within.starts (Kind.inner_of_type? found))
  next => exact unexpectedFor_reads within

theorem binder_places : binder.Places stream Binder.spans := by
  intro cursor within
  refine position_bind_reads ?_
  refine (type_reads within).bind fun type _ within starts => ?_
  refine (identifier_reads within).bind fun name _ within ⟨named, _⟩ => ?_
  refine spanFrom_bind_reads fun span begins => ?_
  exact pure_reads within ⟨by simp [Binder.spans, begins, starts, named.starts], starts⟩

theorem condition_reads (apart : table.Inner) (within : cursor.Within stream) :
    (condition table).Reads stream cursor fun expr => Placed stream expr.spans := by
  refine expect_bind_reads within fun _ within => ?_
  refine (expression_places apart .default _ within).bind fun guard _ within ⟨placed, _⟩ => ?_
  exact expect_bind_reads within fun _ within => pure_reads within placed

theorem expressionStatement_places (apart : table.Inner) :
    (expressionStatement table).Places stream Stmt.spans := by
  intro cursor within
  refine position_bind_reads ?_
  refine (expression_places apart .default _ within).bind fun value _ within ⟨placed, starts⟩ => ?_
  refine expect_bind_reads within fun _ within => ?_
  refine spanFrom_bind_reads fun span begins => ?_
  exact pure_reads within ⟨by simp [Stmt.spans, begins, starts, placed], starts⟩

theorem initial?_reads (apart : table.Inner) {name : Identifier} (starts : Starts stream name.span.start)
    (within : cursor.Within stream) :
    (initial? table name).Reads stream cursor fun initial => Placed stream (initialSpans initial) := by
  refine kind_bind_reads ?_
  split
  next =>
    refine advance_bind_reads within fun within => ?_
    refine (expression_places apart .default _ within).bind fun value _ within ⟨placed, _⟩ => ?_
    exact pure_reads within (by simp [initialSpans, Assignment.spans, Span.join, starts, placed])
  next => exact pure_reads within placed_nil

theorem declaration_places (apart : table.Inner) : (declaration table).Places stream Stmt.spans := by
  intro cursor within
  refine position_bind_reads ?_
  refine (binder_places _ within).bind fun binder _ within ⟨bound, starts⟩ => ?_
  have named : Starts stream binder.name.span.start := bound _ (by simp [Binder.spans])
  refine (initial?_reads apart named within).bind fun initial _ within placed => ?_
  refine expectFor_bind_reads within fun _ within => ?_
  refine spanFrom_bind_reads fun span begins => ?_
  exact pure_reads within ⟨by simp [Stmt.spans, begins, starts, bound, placed], starts⟩

theorem assignment_places (apart : table.Inner) : (assignment table).Places stream Stmt.spans := by
  intro cursor within
  refine position_bind_reads ?_
  refine (identifier_reads within).bind fun target _ within ⟨named, starts⟩ => ?_
  refine expect_bind_reads within fun _ within => ?_
  refine (expression_places apart .default _ within).bind fun value _ within ⟨placed, _⟩ => ?_
  refine expectFor_bind_reads within fun _ within => ?_
  refine spanFrom_bind_reads fun span begins => ?_
  exact pure_reads within
    ⟨by simp [Stmt.spans, Assignment.spans, begins, starts, named.starts, placed], starts⟩

theorem namedStatement_places (apart : table.Inner) : (namedStatement table).Places stream Stmt.spans := by
  intro cursor within
  refine kindAhead_bind_reads fun following => ?_
  split
  next => exact assignment_places apart cursor within
  next => exact expressionStatement_places apart cursor within

theorem display_reads (apart : table.Inner) (within : cursor.Within stream) (begins : cursor.kind.Inner) :
    (display table).Reads stream cursor fun stmt => Placed stream stmt.spans := by
  have starts : Starts stream cursor.current.span.start := within.starts begins
  refine advance_bind_reads within fun within => ?_
  refine (condition_reads apart within).bind fun value _ within placed => ?_
  refine expect_bind_reads within fun _ within => ?_
  refine spanFrom_bind_reads fun span begins => ?_
  exact pure_reads within (by simp [Stmt.spans, begins, starts, placed])

theorem returns_reads (apart : table.Inner) (within : cursor.Within stream) (begins : cursor.kind.Inner) :
    (returns table).Reads stream cursor fun stmt => Placed stream stmt.spans := by
  have starts : Starts stream cursor.current.span.start := within.starts begins
  refine advance_bind_reads within fun within => ?_
  refine kind_bind_reads ?_
  split
  next =>
    refine expect_bind_reads within fun _ within => ?_
    refine spanFrom_bind_reads fun span begins => ?_
    exact pure_reads within (by simp [Stmt.spans, returnedSpans, begins, starts])
  next =>
    refine (expression_places apart .default _ within).bind fun value _ within ⟨placed, _⟩ => ?_
    refine expect_bind_reads within fun _ within => ?_
    refine spanFrom_bind_reads fun span begins => ?_
    exact pure_reads within (by simp [Stmt.spans, returnedSpans, begins, starts, placed])

variable {statement : Parser Stmt}

theorem conditional_reads (apart : table.Inner) (inner : statement.Places stream Stmt.spans)
    (within : cursor.Within stream) (begins : cursor.kind.Inner) :
    (conditional table statement).Reads stream cursor fun stmt => Placed stream stmt.spans := by
  have starts : Starts stream cursor.current.span.start := within.starts begins
  refine advance_bind_reads within fun within => ?_
  refine (condition_reads apart within).bind fun guard _ within guarded => ?_
  refine (inner _ within).bind fun body _ within ⟨placed, _⟩ => ?_
  refine kind_bind_reads ?_
  split
  next =>
    refine advance_bind_reads within fun within => ?_
    refine (inner _ within).bind fun otherwise _ within ⟨others, _⟩ => ?_
    refine spanFrom_bind_reads fun span begins => ?_
    exact pure_reads within (by simp [Stmt.spans, begins, starts, guarded, placed, others])
  next =>
    refine spanFrom_bind_reads fun span begins => ?_
    exact pure_reads within (by simp [Stmt.spans, begins, starts, guarded, placed])

theorem whileLoop_reads (apart : table.Inner) (inner : statement.Places stream Stmt.spans)
    (within : cursor.Within stream) (begins : cursor.kind.Inner) :
    (whileLoop table statement).Reads stream cursor fun stmt => Placed stream stmt.spans := by
  have starts : Starts stream cursor.current.span.start := within.starts begins
  refine advance_bind_reads within fun within => ?_
  refine (condition_reads apart within).bind fun guard _ within guarded => ?_
  refine (inner _ within).bind fun body _ within ⟨placed, _⟩ => ?_
  refine spanFrom_bind_reads fun span begins => ?_
  exact pure_reads within (by simp [Stmt.spans, begins, starts, guarded, placed])

theorem forEach_reads (inner : statement.Places stream Stmt.spans) (within : cursor.Within stream)
    (begins : cursor.kind.Inner) :
    (forEach statement).Reads stream cursor fun stmt => Placed stream stmt.spans := by
  have starts : Starts stream cursor.current.span.start := within.starts begins
  refine advance_bind_reads within fun within => ?_
  refine expect_bind_reads within fun _ within => ?_
  refine (binder_places _ within).bind fun binder _ within ⟨bound, _⟩ => ?_
  refine expectFor_bind_reads within fun _ within => ?_
  refine (identifier_reads within).bind fun group _ within ⟨named, _⟩ => ?_
  refine expect_bind_reads within fun _ within => ?_
  refine (inner _ within).bind fun body _ within ⟨placed, _⟩ => ?_
  refine spanFrom_bind_reads fun span begins => ?_
  exact pure_reads within (by simp [Stmt.spans, begins, starts, bound, named.starts, placed])

theorem blockItem_places (inner : statement.Places stream Stmt.spans) :
    (blockItem statement).Places stream Stmt.spans := by
  intro cursor within
  refine kind_bind_reads ?_
  split
  next => exact unexpectedFor_reads within
  next => exact inner cursor within

theorem statements_places (inner : statement.Places stream Stmt.spans) :
    (statements statement).Places stream allStmtSpans := by
  intro cursor within
  refine expect_bind_reads within fun here advanced => ?_
  refine (many_reads (fun cursor within _ =>
    (blockItem_places inner cursor within).mono fun _ placed => placed.1) advanced).bind
      fun items _ advanced placed => ?_
  refine expect_bind_reads advanced fun _ advanced => ?_
  exact pure_reads advanced ⟨by simpa [allStmtSpans_eq] using placed, within.startsAt here (by decide)⟩

theorem block_places (inner : statement.Places stream Stmt.spans) :
    (block statement).Places stream Stmt.spans := by
  intro cursor within
  refine position_bind_reads ?_
  refine (statements_places inner _ within).bind fun items _ within ⟨placed, starts⟩ => ?_
  refine spanFrom_bind_reads fun span begins => ?_
  exact pure_reads within ⟨by simp [Stmt.spans, begins, starts, placed], starts⟩

theorem statementBy_reads (apart : table.Inner) (inner : statement.Places stream Stmt.spans)
    (rule : StatementRule) (within : cursor.Within stream) (begins : cursor.kind.Inner) :
    (statementBy table statement rule).Reads stream cursor fun stmt => Placed stream stmt.spans := by
  cases rule with
  | any => exact (inner _ within).mono fun _ placed => placed.1
  | declaration => exact (declaration_places apart _ within).mono fun _ placed => placed.1
  | identifier => exact (namedStatement_places apart _ within).mono fun _ placed => placed.1
  | display => exact display_reads apart within begins
  | conditional => exact conditional_reads apart inner within begins
  | whileLoop => exact whileLoop_reads apart inner within begins
  | forEach => exact forEach_reads inner within begins
  | returns => exact returns_reads apart within begins
  | block => exact (block_places inner _ within).mono fun _ placed => placed.1

theorem statementWithin_places (apart : table.Inner) (fuel : Nat) :
    (statementWithin table fuel).Places stream Stmt.spans := by
  induction fuel with
  | zero => exact fun _ _ => .exhausted
  | succ fuel ih =>
    intro cursor within
    refine kind_bind_reads ?_
    split
    next rule found =>
      have begins := apart.statement found
      exact (statementBy_reads apart ih rule within begins).mono fun _ placed => ⟨placed, within.starts begins⟩
    next => exact expressionStatement_places apart cursor within

theorem statement_places (apart : table.Inner) : (Parser.statement table).Places stream Stmt.spans :=
  fun cursor within => statementWithin_places apart cursor.fuel cursor within

theorem function_places (apart : table.Inner) : (function table).Places stream Function.spans := by
  intro cursor within
  refine expect_bind_reads within fun here advanced => ?_
  have starts : Starts stream cursor.current.span.start := within.startsAt here (by decide)
  refine (type_reads advanced).bind fun returned _ within _ => ?_
  refine (identifier_reads within).bind fun name _ within ⟨named, _⟩ => ?_
  refine (commaSeparated_reads (fun cursor within =>
    (binder_places cursor within).mono fun _ placed => placed.1) within).bind
      fun parameters _ within bound => ?_
  refine (statements_places (statement_places apart) _ within).bind fun body _ within ⟨placed, _⟩ => ?_
  refine spanFrom_bind_reads fun span begins => ?_
  refine pure_reads within ⟨?_, starts⟩
  simp only [Function.spans, placed_cons, placed_append, placed_flatMap]
  exact ⟨begins ▸ starts, named.starts, bound, placed⟩

theorem tunnel_reads (within : cursor.Within stream) (begins : cursor.kind.Inner) :
    tunnel.Reads stream cursor fun tunnel => Placed stream tunnel.spans := by
  have starts : Starts stream cursor.current.span.start := within.starts begins
  refine advance_bind_reads within fun within => ?_
  refine expect_bind_reads within fun _ within => ?_
  refine (binder_places _ within).bind fun binder _ within ⟨bound, _⟩ => ?_
  refine expect_bind_reads within fun _ within => ?_
  refine spanFrom_bind_reads fun span begins => ?_
  exact pure_reads within (by simp [Tunnel.spans, begins, starts, bound])

theorem group_reads (within : cursor.Within stream) (begins : cursor.kind.Inner) :
    group.Reads stream cursor fun group => Placed stream group.spans := by
  have starts : Starts stream cursor.current.span.start := within.starts begins
  refine advance_bind_reads within fun within => ?_
  refine expect_bind_reads within fun _ within => ?_
  refine (identifier_reads within).bind fun client _ within ⟨owned, _⟩ => ?_
  refine (identifier_reads within).bind fun name _ within ⟨named, _⟩ => ?_
  refine expect_bind_reads within fun _ within => ?_
  refine spanFrom_bind_reads fun span begins => ?_
  exact pure_reads within (by simp [Group.spans, begins, starts, owned.starts, named.starts])

theorem clientMember_reads (apart : table.Inner) (within : cursor.Within stream) :
    (clientMember table).Reads stream cursor fun member =>
      Placed stream (member.elim Tunnel.spans Function.spans) := by
  refine kind_bind_reads ?_
  split
  next here =>
    exact (tunnel_reads within (here ▸ by decide)).bind fun _ _ within placed => pure_reads within placed
  next =>
    exact (function_places apart _ within).bind fun _ _ within ⟨placed, _⟩ => pure_reads within placed
  next => exact unexpectedFor_reads within

theorem serverMember_reads (apart : table.Inner) (within : cursor.Within stream) :
    (serverMember table).Reads stream cursor fun member =>
      Placed stream (member.elim Group.spans Function.spans) := by
  refine kind_bind_reads ?_
  split
  next here =>
    exact (group_reads within (here ▸ by decide)).bind fun _ _ within placed => pure_reads within placed
  next =>
    exact (function_places apart _ within).bind fun _ _ within ⟨placed, _⟩ => pure_reads within placed
  next => exact unexpectedFor_reads within

/-- What holds of all members holds of those of each sort. -/
theorem forall_sorted {α β : Type} {items : List (α ⊕ β)} {holds : α ⊕ β → Prop}
    (all : ∀ item ∈ items, holds item) : (∀ value ∈ items.filterMap Sum.getLeft?, holds (.inl value)) ∧
      ∀ value ∈ items.filterMap Sum.getRight?, holds (.inr value) := by
  simp only [List.mem_filterMap]
  constructor
  · rintro value ⟨item, among, here⟩
    obtain rfl := Sum.getLeft?_eq_some_iff.mp here
    exact all _ among
  · rintro value ⟨item, among, here⟩
    obtain rfl := Sum.getRight?_eq_some_iff.mp here
    exact all _ among

theorem members_reads {α β : Type} {member : Parser (α ⊕ β)} {left : α → List Span} {right : β → List Span}
    (each : ∀ cursor : Cursor, cursor.Within stream →
      member.Reads stream cursor fun item => Placed stream (item.elim left right))
    (within : cursor.Within stream) :
    (members member).Reads stream cursor fun (first, second) =>
      Placed stream (first.flatMap left ++ second.flatMap right) := by
  refine expect_bind_reads within fun _ within => ?_
  refine (many_reads (fun cursor within _ => each cursor within) within).bind fun items _ within placed => ?_
  refine expect_bind_reads within fun _ within => pure_reads within ?_
  simp only [placed_append, placed_flatMap]
  exact forall_sorted placed

theorem client_reads (apart : table.Inner) (within : cursor.Within stream) :
    (client table).Reads stream cursor fun client => Placed stream client.innerSpans := by
  refine expect_bind_reads within fun _ within => ?_
  refine expect_bind_reads within fun _ within => ?_
  refine (identifier_reads within).bind fun name _ within ⟨named, _⟩ => ?_
  refine (members_reads (fun _ within => clientMember_reads apart within) within).bind
    fun ⟨tunnels, functions⟩ _ within placed => ?_
  refine spanFrom_bind_reads fun span _ => ?_
  exact pure_reads within (placed_cons.mpr ⟨named.starts, placed⟩)

theorem server_reads (apart : table.Inner) (within : cursor.Within stream) :
    (server table).Reads stream cursor fun server => Placed stream server.innerSpans := by
  refine expect_bind_reads within fun _ within => ?_
  refine expect_bind_reads within fun _ within => ?_
  refine (identifier_reads within).bind fun name _ within ⟨named, _⟩ => ?_
  refine (members_reads (fun _ within => serverMember_reads apart within) within).bind
    fun ⟨groups, functions⟩ _ within placed => ?_
  refine spanFrom_bind_reads fun span _ => ?_
  exact pure_reads within (placed_cons.mpr ⟨named.starts, placed⟩)

theorem program_reads (apart : table.Inner) (within : cursor.Within stream) :
    (program table).Reads stream cursor fun program => Placed stream program.innerSpans := by
  refine position_bind_reads ?_
  refine (many_reads (fun _ within _ => client_reads apart within) within).bind
    fun clients _ within placed => ?_
  refine require_bind_reads within ?_
  refine (server_reads apart within).bind fun server _ within served => ?_
  refine require_bind_reads within ?_
  refine spanFrom_bind_reads fun span _ => ?_
  exact pure_reads within (placed_append.mpr ⟨placed_flatMap.mpr placed, served⟩)

end

end

end Parser
end Multiparty
