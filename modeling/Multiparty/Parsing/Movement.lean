import Multiparty.Parsing.Parser

/-! How far parsers move. A parser that settles leaves the cursor where it was or further on in the same
stream, and a recursion is bounded by the tokens that are left as long as each round consumes one. -/

namespace Multiparty

namespace Cursor
open Token

def remaining (cursor : Cursor) : Nat :=
  cursor.ahead.length

/-- The stream ends with an end-of-input token. -/
def Closed (cursor : Cursor) : Prop :=
  ((cursor.ahead.getLast?).getD cursor.current).kind = .endOfInput

/-- `later` is where the cursor stands after consuming some tokens from `first` on. -/
inductive Reaches (first : Cursor) : Cursor → Prop
  | start : Reaches first first
  | step {later : Cursor} : Reaches first later → Reaches first later.advance

theorem Reaches.trans {first second third : Cursor} (before : first.Reaches second)
    (after : second.Reaches third) : first.Reaches third := by
  induction after with
  | start => exact before
  | step _ ih => exact .step ih

theorem remaining_advance_le (cursor : Cursor) : cursor.advance.remaining ≤ cursor.remaining := by
  unfold advance remaining
  split
  next empty => simp
  next next rest stream => simp [stream]

theorem Closed.advance {cursor : Cursor} (closed : cursor.Closed) : cursor.advance.Closed := by
  obtain ⟨behind, current, ahead⟩ := cursor
  cases ahead with
  | nil => exact closed
  | cons next rest => simpa [Closed, Cursor.advance, List.getLast?_cons] using closed

theorem Reaches.closed {first later : Cursor} (reached : first.Reaches later)
    (closed : first.Closed) : later.Closed := by
  induction reached with
  | start => exact closed
  | step _ ih => exact ih.advance

/-- Only at the end of the stream does the cursor stay where it is. -/
theorem Closed.remaining_advance_lt {cursor : Cursor} (closed : cursor.Closed)
    (inside : cursor.kind ≠ .endOfInput) : cursor.advance.remaining + 1 ≤ cursor.remaining := by
  obtain ⟨behind, current, ahead⟩ := cursor
  cases ahead with
  | nil => exact absurd closed inside
  | cons next rest => simp [Cursor.advance, remaining]

theorem closedAfter_closed (behind : Position) (last : Token) (tokens : List Token) :
    Closed ⟨behind, last, closedAfter last tokens⟩ := by
  induction tokens generalizing last with
  | nil =>
    unfold closedAfter
    split
    next ended => simpa [Closed] using ended
    next => simp [Closed, endOfInput]
  | cons next rest ih =>
    simpa [Closed, closedAfter, List.getLast?_cons] using ih next

theorem ofTokens_closed (file : String) (tokens : List Token) : (ofTokens file tokens).Closed := by
  cases tokens with
  | nil => rfl
  | cons first rest => exact closedAfter_closed _ _ _

end Cursor

namespace Outcome
variable {α : Type}

/-- Settled, and if with a value then after at least `gap` tokens. -/
inductive Moved (first : Cursor) (gap : Nat) : Outcome α → Prop
  | done {value : α} {next : Cursor} : first.Reaches next → next.remaining + gap ≤ first.remaining →
    Moved first gap (.done value next)
  | failed {diagnostic : Diagnostic} {stopped : Cursor} : first.Reaches stopped →
    Moved first gap (.failed diagnostic stopped)

theorem Moved.weaken {first : Cursor} {gap fewer : Nat} {outcome : Outcome α}
    (moved : outcome.Moved first gap) (less : fewer ≤ gap) : outcome.Moved first fewer := by
  cases moved with
  | done reached consumed => exact .done reached (by omega)
  | failed reached => exact .failed reached

end Outcome

namespace Parser
open Token
variable {α β : Type}

/-- From every cursor with `start` and fewer than `bound` tokens ahead, the parser settles, and if it succeeds
has consumed at least `gap` tokens. -/
def Moves (start : Cursor → Prop) (gap bound : Nat) (parser : Parser α) : Prop :=
  ∀ cursor : Cursor, cursor.Closed → start cursor → cursor.remaining < bound →
    (parser cursor).Moved cursor gap

def anywhere (_ : Cursor) : Prop := True

def inside (cursor : Cursor) : Prop := cursor.kind ≠ .endOfInput

theorem Moves.weaken {start : Cursor → Prop} {gap fewer bound : Nat} {parser : Parser α}
    (moves : parser.Moves start gap bound) (less : fewer ≤ gap) :
    parser.Moves start fewer bound :=
  fun cursor closed started near => (moves cursor closed started near).weaken less

theorem Moves.nearer {start : Cursor → Prop} {gap bound closer : Nat} {parser : Parser α}
    (moves : parser.Moves start gap bound) (less : closer ≤ bound) :
    parser.Moves start gap closer :=
  fun cursor closed started near => moves cursor closed started (by omega)

theorem Moves.restrict {start narrower : Cursor → Prop} {gap bound : Nat} {parser : Parser α}
    (moves : parser.Moves start gap bound) (implied : ∀ cursor, narrower cursor → start cursor) :
    parser.Moves narrower gap bound :=
  fun cursor closed started near => moves cursor closed (implied cursor started) near

/-- What the first parser consumes need not be counted in the bound of the second. -/
theorem Moves.bind {start : Cursor → Prop} {gap more bound later : Nat} {parser : Parser α}
    {next : α → Parser β} (first : parser.Moves start gap bound)
    (second : ∀ value, (next value).Moves anywhere more later) (fits : bound ≤ later + gap) :
    (parser >>= next).Moves start (gap + more) bound := by
  intro cursor closed started near
  have moved := first cursor closed started near
  simp only [Bind.bind]
  cases result : parser cursor with
  | done value after =>
    rw [result] at moved
    cases moved with
    | done reached consumed =>
      have continued := second value after (reached.closed closed) trivial (by omega)
      show (next value after).Moved cursor (gap + more)
      cases outcome : next value after with
      | done value last =>
        rw [outcome] at continued
        cases continued with
        | done reachedLast consumedLast =>
          exact .done (reached.trans reachedLast) (by omega)
      | failed diagnostic stopped =>
        rw [outcome] at continued
        cases continued with
        | failed reachedLast => exact .failed (reached.trans reachedLast)
      | exhausted => rw [outcome] at continued; cases continued
  | failed diagnostic stopped =>
    rw [result] at moved
    cases moved with
    | failed reached => exact .failed reached
  | exhausted => rw [result] at moved; cases moved

/-- As `Moves.bind`, for a second parser whose movement is still to be shown. -/
theorem Moves.follow {start : Cursor → Prop} {gap bound : Nat} {parser : Parser α}
    {next : α → Parser β} (first : parser.Moves start gap bound) (more later : Nat)
    (second : ∀ value, (next value).Moves anywhere more later) (fits : bound ≤ later + gap) :
    (parser >>= next).Moves start (gap + more) bound :=
  first.bind second fits

theorem pure_moves (start : Cursor → Prop) (bound : Nat) (value : α) :
    (pure value : Parser α).Moves start 0 bound :=
  fun _ _ _ _ => .done .start (Nat.le_refl _)

theorem fail_moves (start : Cursor → Prop) (gap bound : Nat) (diagnostic : Diagnostic) :
    (fail diagnostic : Parser α).Moves start gap bound :=
  fun _ _ _ _ => .failed .start

theorem unexpected_moves (start : Cursor → Prop) (gap bound : Nat) :
    (unexpected : Parser α).Moves start gap bound :=
  fun _ _ _ _ => .failed .start

theorem unexpectedFor_moves (start : Cursor → Prop) (gap bound : Nat) (reason : String) :
    (unexpectedFor reason : Parser α).Moves start gap bound :=
  fun _ _ _ _ => .failed .start

theorem position_moves (start : Cursor → Prop) (bound : Nat) : position.Moves start 0 bound :=
  fun _ _ _ _ => .done .start (Nat.le_refl _)

theorem spanFrom_moves (start : Cursor → Prop) (bound : Nat) (place : Position) :
    (spanFrom place).Moves start 0 bound :=
  fun _ _ _ _ => .done .start (Nat.le_refl _)

/-- How many tokens `advance` surely consumes: one inside the stream, none where it may be at the end. -/
inductive Departs : (Cursor → Prop) → Nat → Prop
  | inside : Departs inside 1
  | anywhere : Departs anywhere 0

theorem Departs.le_one {start : Cursor → Prop} {gap : Nat} (departs : Departs start gap) : gap ≤ 1 := by
  cases departs with
  | inside => exact Nat.le_refl 1
  | anywhere => exact Nat.zero_le 1

theorem advance_moves {start : Cursor → Prop} {gap : Nat} (departs : Departs start gap) (bound : Nat) :
    advance.Moves start gap bound := by
  intro cursor closed started _
  cases departs with
  | inside => exact .done (.step .start) (closed.remaining_advance_lt started)
  | anywhere => exact .done (.step .start) (Cursor.remaining_advance_le cursor)

theorem expect_moves {wanted : Kind} (real : wanted ≠ .endOfInput) (start : Cursor → Prop)
    (bound : Nat) : (expect wanted).Moves start 1 bound := by
  intro cursor closed _ _
  unfold expect
  split
  next found =>
    exact .done (.step .start) (closed.remaining_advance_lt fun ended => real (found ▸ ended))
  next => exact .failed .start

theorem expectFor_moves {wanted : Kind} (real : wanted ≠ .endOfInput) (reason : String)
    (start : Cursor → Prop) (bound : Nat) : (expectFor wanted reason).Moves start 1 bound := by
  intro cursor closed _ _
  unfold expectFor
  split
  next found =>
    exact .done (.step .start) (closed.remaining_advance_lt fun ended => real (found ▸ ended))
  next => exact .failed .start

/-- A parser that looks at the current token may use what it saw. -/
theorem kind_bind_moves {start : Cursor → Prop} {gap bound : Nat} {next : Kind → Parser α}
    (moves : ∀ seen, (next seen).Moves (fun cursor => start cursor ∧ cursor.kind = seen) gap bound) :
    (kind >>= next).Moves start gap bound :=
  fun cursor closed started near => moves cursor.kind cursor closed ⟨started, rfl⟩ near

theorem kindAhead_bind_moves {start : Cursor → Prop} {gap bound distance : Nat}
    {next : Kind → Parser α} (moves : ∀ seen, (next seen).Moves start gap bound) :
    (kindAhead distance >>= next).Moves start gap bound :=
  fun cursor closed started near => moves (cursor.kindAhead distance) cursor closed started near

theorem manyWithin_moves {continues : Cursor → Bool} {item : Parser α} {bound : Nat}
    (each : item.Moves (fun cursor => continues cursor = true) 1 bound) (fuel : Nat) :
    (manyWithin continues item fuel).Moves anywhere 0 (min bound fuel) := by
  induction fuel with
  | zero =>
    intro cursor _ _ near
    omega
  | succ fuel ih =>
    intro cursor closed _ near
    simp only [manyWithin]
    split
    next more =>
      have round : (do
          let first ← item
          let rest ← manyWithin continues item fuel
          return first :: rest : Parser (List α)).Moves
            (fun cursor => continues cursor = true) (1 + (0 + 0)) (min bound (fuel + 1)) :=
        (each.nearer (by omega)).bind
          (fun first => ih.bind (fun rest => pure_moves _ (min bound fuel) _) (by omega)) (by omega)
      exact (round cursor closed more near).weaken (by omega)
    next => exact .done .start (Nat.le_refl _)

theorem many_moves {continues : Cursor → Bool} {item : Parser α} {bound : Nat}
    (each : item.Moves (fun cursor => continues cursor = true) 1 bound) (start : Cursor → Prop) :
    (many continues item).Moves start 0 bound :=
  fun cursor closed _ near =>
    manyWithin_moves each cursor.fuel cursor closed trivial
      (by simp only [Cursor.remaining, Cursor.fuel] at near ⊢; omega)

theorem separator_moves (reason : String) (bound : Nat) :
    (separator reason).Moves anywhere 0 bound := by
  refine kind_bind_moves fun seen => ?_
  split
  next => exact pure_moves _ _ _
  next =>
    exact ((expectFor_moves (by decide) reason _ bound).bind
      (fun _ => pure_moves _ bound _) (by omega)).weaken (by omega)

theorem commaSeparated_moves {item : Parser α} {bound : Nat} (reason : String)
    (each : item.Moves anywhere 1 bound) :
    (commaSeparated item reason).Moves anywhere 2 (bound + 1) := by
  have round := each.bind (fun value => (separator_moves reason bound).bind
    (fun _ => pure_moves _ bound value) (by omega)) (by omega)
  exact (expect_moves (by decide) _ _).bind
    (fun _ => (many_moves (round.restrict fun _ _ => trivial) anywhere).bind
      (fun items => (expect_moves (by decide) _ bound).bind
        (fun _ => pure_moves _ bound items) (by omega)) (by omega)) (by omega)

end Parser
end Multiparty
