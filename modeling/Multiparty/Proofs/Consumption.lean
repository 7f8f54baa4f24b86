import Multiparty.Parsing.Movement
import Multiparty.Proofs.Grammar

/-! What parsers consume, as terminals of the grammar. A parser that is done tells which tokens it took, and tokens
that are there can be taken. -/

namespace Multiparty
open Grammar

theorem Grammar.Terminal.kind_of (token : Token) : (Terminal.of token).kind = token.kind := by
  unfold Terminal.of
  split <;> simp [kind, *]

/-- Kinds of tokens of which only the kind matters. -/
def Token.Kind.isMark : Token.Kind → Bool
  | .number | .string | .identifier => false
  | _ => true

theorem Grammar.Terminal.of_eq_mark {token : Token} {kind : Token.Kind} (found : token.kind = kind)
    (plain : kind.isMark) : Terminal.of token = .mark kind := by
  subst found
  unfold Terminal.of
  split <;> simp_all [Token.Kind.isMark]

theorem Grammar.Terminal.of_eq_name {token : Token} (found : token.kind = .identifier) :
    Terminal.of token = .name token.value := by
  simp [Terminal.of, found]

theorem Grammar.Terminal.eq_of_of_eq_name {token : Token} {name : String}
    (spelled : Terminal.of token = .name name) : token.kind = .identifier ∧ token.value = name := by
  have kind := kind_of token
  rw [spelled] at kind
  have found : token.kind = .identifier := kind.symm
  rw [of_eq_name found] at spelled
  exact ⟨found, Terminal.name.inj spelled⟩

namespace Cursor

/-- The tokens of these terminals lead from the cursor to `later`. -/
def Consumes : Cursor → List Terminal → Cursor → Prop
  | cursor, [], later => cursor = later
  | cursor, terminal :: rest, later =>
    Terminal.of cursor.current = terminal ∧ cursor.ahead ≠ [] ∧ cursor.advance.Consumes rest later

theorem consumes_nil {cursor later : Cursor} : cursor.Consumes [] later ↔ cursor = later :=
  Iff.rfl

theorem consumes_cons {cursor later : Cursor} {terminal : Terminal} {rest : List Terminal} :
    cursor.Consumes (terminal :: rest) later ↔
      Terminal.of cursor.current = terminal ∧ cursor.ahead ≠ [] ∧
        cursor.advance.Consumes rest later :=
  Iff.rfl

theorem consumes_append {cursor later : Cursor} {first second : List Terminal} :
    cursor.Consumes (first ++ second) later ↔
      ∃ middle, cursor.Consumes first middle ∧ middle.Consumes second later := by
  induction first generalizing cursor with
  | nil => simp [consumes_nil]
  | cons terminal rest ih =>
    simp only [List.cons_append, consumes_cons, ih]
    constructor
    · rintro ⟨same, more, middle, before, after⟩
      exact ⟨middle, ⟨same, more, before⟩, after⟩
    · rintro ⟨middle, ⟨same, more, before⟩, after⟩
      exact ⟨same, more, middle, before, after⟩

theorem Consumes.trans {cursor middle later : Cursor} {first second : List Terminal}
    (before : cursor.Consumes first middle) (after : middle.Consumes second later) :
    cursor.Consumes (first ++ second) later :=
  consumes_append.mpr ⟨middle, before, after⟩

theorem Consumes.closed {cursor later : Cursor} {text : List Terminal}
    (consumed : cursor.Consumes text later) (closed : cursor.Closed) : later.Closed := by
  induction text generalizing cursor with
  | nil => exact consumed ▸ closed
  | cons terminal rest ih => exact ih consumed.2.2 closed.advance

theorem remaining_advance {cursor : Cursor} (more : cursor.ahead ≠ []) :
    cursor.advance.remaining + 1 = cursor.remaining := by
  obtain ⟨behind, current, ahead⟩ := cursor
  cases ahead with
  | nil => exact absurd rfl more
  | cons next rest => simp [advance, remaining]

theorem Consumes.remaining {cursor later : Cursor} {text : List Terminal}
    (consumed : cursor.Consumes text later) : later.remaining + text.length = cursor.remaining := by
  induction text generalizing cursor with
  | nil => exact congrArg Cursor.remaining consumed.symm
  | cons terminal rest ih =>
    have step := remaining_advance consumed.2.1
    have others := ih consumed.2.2
    rw [List.length_cons]
    omega

/-- Inside a closed stream there are tokens ahead. -/
theorem Closed.ahead_ne_nil {cursor : Cursor} (closed : cursor.Closed)
    (inside : cursor.kind ≠ .endOfInput) : cursor.ahead ≠ [] := by
  intro ended
  apply inside
  rw [Closed, ended] at closed
  exact closed

/-- One token of a kind of which only the kind matters. -/
theorem Closed.consumes_mark {cursor : Cursor} {kind : Token.Kind} (closed : cursor.Closed)
    (found : cursor.kind = kind) (plain : kind.isMark) (inside : kind ≠ .endOfInput) :
    cursor.Consumes [.mark kind] cursor.advance :=
  ⟨Terminal.of_eq_mark found plain, closed.ahead_ne_nil (found ▸ inside), rfl⟩

theorem Closed.consumes_name {cursor : Cursor} (closed : cursor.Closed)
    (found : cursor.kind = .identifier) :
    cursor.Consumes [.name cursor.current.value] cursor.advance :=
  ⟨Terminal.of_eq_name found, closed.ahead_ne_nil (by simp [found]), rfl⟩

/-- The cursor stands at the first token of what is consumed. -/
theorem Consumes.kind_eq {cursor later : Cursor} {terminal : Terminal} {rest : List Terminal}
    (consumed : cursor.Consumes (terminal :: rest) later) : cursor.kind = terminal.kind := by
  rw [← consumed.1, Terminal.kind_of]
  rfl

end Cursor

namespace Parser
open Token
variable {α β : Type} {cursor later : Cursor}

theorem bind_eq_done {parser : Parser α} {next : α → Parser β} {value : β} :
    (parser >>= next) cursor = .done value later ↔
      ∃ first middle, parser cursor = .done first middle ∧ next first middle = .done value later := by
  simp only [bind]
  cases parser cursor with
  | done first middle =>
    constructor
    · intro ran
      exact ⟨first, middle, rfl, ran⟩
    · rintro ⟨_, _, same, ran⟩
      cases same
      exact ran
  | failed => simp
  | exhausted => simp

theorem bind_done {parser : Parser α} {value : α} (ran : parser cursor = .done value later)
    (next : α → Parser β) : (parser >>= next) cursor = next value later := by
  simp only [bind, ran]

theorem pure_eq_done {value other : α} :
    (pure value : Parser α) cursor = .done other later ↔ value = other ∧ cursor = later :=
  Iff.of_eq (Outcome.done.injEq _ _ _ _)

theorem kind_eq_done {seen : Kind} :
    kind cursor = .done seen later ↔ cursor.kind = seen ∧ cursor = later :=
  Iff.of_eq (Outcome.done.injEq _ _ _ _)

theorem kindAhead_eq_done {distance : Nat} {seen : Kind} :
    kindAhead distance cursor = .done seen later ↔
      cursor.kindAhead distance = seen ∧ cursor = later :=
  Iff.of_eq (Outcome.done.injEq _ _ _ _)

theorem position_eq_done {place : Position} :
    position cursor = .done place later ↔ cursor.position = place ∧ cursor = later :=
  Iff.of_eq (Outcome.done.injEq _ _ _ _)

theorem spanFrom_eq_done {start : Position} {span : Span} :
    spanFrom start cursor = .done span later ↔ cursor.spanFrom start = span ∧ cursor = later :=
  Iff.of_eq (Outcome.done.injEq _ _ _ _)

theorem advance_eq_done {token : Token} :
    advance cursor = .done token later ↔ cursor.current = token ∧ cursor.advance = later :=
  Iff.of_eq (Outcome.done.injEq _ _ _ _)

theorem expect_eq_done {wanted : Kind} {token : Token} :
    expect wanted cursor = .done token later ↔
      cursor.kind = wanted ∧ cursor.current = token ∧ cursor.advance = later := by
  unfold expect
  by_cases found : cursor.kind = wanted <;> simp [found]

theorem expectFor_eq_done {wanted : Kind} {reason : String} {token : Token} :
    expectFor wanted reason cursor = .done token later ↔
      cursor.kind = wanted ∧ cursor.current = token ∧ cursor.advance = later := by
  unfold expectFor
  by_cases found : cursor.kind = wanted <;> simp [found]

theorem identifier_eq_done {name : Identifier} :
    identifier cursor = .done name later ↔
      cursor.kind = .identifier ∧ ⟨cursor.current.value, cursor.current.span⟩ = name ∧
        cursor.advance = later := by
  simp only [identifier, bind_eq_done, expectFor_eq_done, pure_eq_done]
  constructor
  · rintro ⟨token, middle, ⟨found, rfl, rfl⟩, rfl, rfl⟩
    exact ⟨found, rfl, rfl⟩
  · rintro ⟨found, rfl, rfl⟩
    exact ⟨_, _, ⟨found, rfl, rfl⟩, rfl, rfl⟩

/-- A parser that is done from a closed cursor where `start` holds has read the text of its value. -/
def Sound (start : Cursor → Prop) (parser : Parser α) (erase : α → β)
    (text : List Terminal → β → Prop) : Prop :=
  ∀ cursor value later, cursor.Closed → start cursor → parser cursor = .done value later →
    ∃ consumed, cursor.Consumes consumed later ∧ text consumed (erase value)

section
variable {continues : Cursor → Bool} {item : Parser α} {erase : α → β}
  {text : List Terminal → β → Prop}

theorem manyWithin_succ (fuel : Nat) : manyWithin continues item (fuel + 1) cursor =
    if continues cursor then
      (do
        let first ← item
        let rest ← manyWithin continues item fuel
        return first :: rest : Parser (List α)) cursor
    else .done [] cursor := rfl

theorem manyWithin_sound (sound : Sound (continues · = true) item erase text) {fuel : Nat} {values : List α}
    (closed : cursor.Closed) (ran : manyWithin continues item fuel cursor = .done values later) :
    ∃ pieces : List (List Terminal × β), pieces.map Prod.snd = values.map erase ∧
      (∀ piece ∈ pieces, text piece.1 piece.2) ∧
      cursor.Consumes (pieces.map Prod.fst).flatten later ∧ continues later = false := by
  induction fuel generalizing cursor values with
  | zero => cases ran
  | succ fuel ih =>
    rw [manyWithin_succ] at ran
    split at ran
    next more =>
      simp only [bind_eq_done, pure_eq_done] at ran
      obtain ⟨first, middle, ranFirst, rest, last, ranRest, rfl, rfl⟩ := ran
      obtain ⟨consumed, taken, spelled⟩ := sound _ _ _ closed more ranFirst
      obtain ⟨pieces, same, texts, others, stopped⟩ := ih (taken.closed closed) ranRest
      refine ⟨(consumed, erase first) :: pieces, by simp [same], ?_, ?_, stopped⟩
      · rw [List.forall_mem_cons]
        exact ⟨spelled, texts⟩
      · exact taken.trans others
    next stopped =>
      cases ran
      exact ⟨[], rfl, nofun, rfl, by simpa using stopped⟩

theorem many_sound (sound : Sound (continues · = true) item erase text) {values : List α} (closed : cursor.Closed)
    (ran : many continues item cursor = .done values later) :
    ∃ pieces : List (List Terminal × β), pieces.map Prod.snd = values.map erase ∧
      (∀ piece ∈ pieces, text piece.1 piece.2) ∧
      cursor.Consumes (pieces.map Prod.fst).flatten later ∧ continues later = false :=
  manyWithin_sound sound closed ran

variable {follows : Cursor → Prop} {bound : Nat}

/-- Texts of items one after the other are read if each item is read where `follows` holds after it, which it does
where the next item begins. -/
theorem manyWithin_complete {pieces : List (List Terminal × β)}
    (starts : ∀ piece ∈ pieces, ∀ cursor later, cursor.Consumes piece.1 later →
      piece.1 ≠ [] ∧ continues cursor = true ∧ follows cursor)
    (each : ∀ piece ∈ pieces, ∀ cursor later, cursor.Consumes piece.1 later → follows later →
      cursor.remaining < bound → ∃ value, item cursor = .done value later ∧ erase value = piece.2)
    (stops : continues later = false) (last : follows later)
    (consumed : cursor.Consumes (pieces.map Prod.fst).flatten later)
    (near : cursor.remaining < bound) {fuel : Nat} (enough : cursor.remaining < fuel) :
    ∃ values, manyWithin continues item fuel cursor = .done values later ∧
      values.map erase = pieces.map Prod.snd := by
  induction pieces generalizing cursor fuel with
  | nil =>
    cases consumed
    obtain ⟨fuel, rfl⟩ : ∃ less, fuel = less + 1 := ⟨fuel - 1, by omega⟩
    exact ⟨[], by rw [manyWithin_succ, if_neg (by simp [stops])], rfl⟩
  | cons piece pieces ih =>
    rw [List.forall_mem_cons] at starts each
    rw [List.map_cons, List.flatten_cons, Cursor.consumes_append] at consumed
    obtain ⟨middle, taken, others⟩ := consumed
    obtain ⟨nonempty, more, -⟩ := starts.1 _ _ taken
    have between : follows middle := by
      cases pieces with
      | nil =>
        cases others
        exact last
      | cons next rest =>
        rw [List.map_cons, List.flatten_cons, Cursor.consumes_append] at others
        obtain ⟨_, taken, _⟩ := others
        exact (starts.2 next List.mem_cons_self _ _ taken).2.2
    have fewer := taken.remaining
    have long := List.length_pos_iff.mpr nonempty
    obtain ⟨value, ranFirst, same⟩ := each.1 _ _ taken between near
    obtain ⟨less, rfl⟩ : ∃ less, fuel = less + 1 := ⟨fuel - 1, by omega⟩
    obtain ⟨values, ranRest, sameRest⟩ :=
      ih starts.2 each.2 others (by omega) (show middle.remaining < less by omega)
    refine ⟨value :: values, ?_, by simp [same, sameRest]⟩
    rw [manyWithin_succ, if_pos more, bind_done ranFirst, bind_done ranRest]
    rfl

theorem many_complete {pieces : List (List Terminal × β)}
    (starts : ∀ piece ∈ pieces, ∀ cursor later, cursor.Consumes piece.1 later →
      piece.1 ≠ [] ∧ continues cursor = true ∧ follows cursor)
    (each : ∀ piece ∈ pieces, ∀ cursor later, cursor.Consumes piece.1 later → follows later →
      cursor.remaining < bound → ∃ value, item cursor = .done value later ∧ erase value = piece.2)
    (stops : continues later = false) (last : follows later)
    (consumed : cursor.Consumes (pieces.map Prod.fst).flatten later)
    (near : cursor.remaining < bound) :
    ∃ values, many continues item cursor = .done values later ∧
      values.map erase = pieces.map Prod.snd :=
  manyWithin_complete starts each stops last consumed near
    (by simp only [Cursor.remaining, Cursor.fuel]; omega)

end

/-! Items in parentheses. -/

theorem separator_eq_done {reason : String} :
    separator reason cursor = .done () later ↔
      (cursor.kind = .closeParen ∧ cursor = later) ∨
        (cursor.kind = .comma ∧ cursor.advance = later) := by
  simp only [separator, bind_eq_done, kind_eq_done]
  constructor
  · rintro ⟨seen, _, ⟨found, rfl⟩, ran⟩
    split at ran
    next => exact .inl ⟨found, (pure_eq_done.mp ran).2⟩
    next =>
      simp only [bind_eq_done, expectFor_eq_done, pure_eq_done] at ran
      obtain ⟨_, _, ⟨comma, _, rfl⟩, _, rfl⟩ := ran
      exact .inr ⟨comma, rfl⟩
  · rintro (⟨closing, rfl⟩ | ⟨comma, rfl⟩)
    · exact ⟨_, _, ⟨rfl, rfl⟩, by rw [closing]; rfl⟩
    · refine ⟨_, _, ⟨rfl, rfl⟩, ?_⟩
      rw [comma]
      exact bind_eq_done.mpr ⟨_, _, expectFor_eq_done.mpr ⟨comma, rfl, rfl⟩, rfl⟩

/-- An item with the comma after it. -/
def separated (item : Parser α) (reason : String) : Parser α := do
  let value ← item
  separator reason
  return value

def unclosed (cursor : Cursor) : Bool :=
  cursor.kind ≠ .closeParen

section
variable {item : Parser α} {reason : String} {erase : α → β} {text : List Terminal → β → Prop}

theorem commaSeparated_eq : commaSeparated item reason = (do
    let _ ← expect .openParen
    let items ← many unclosed (separated item reason)
    let _ ← expect .closeParen
    return items) := rfl

theorem separatedWithin_sound (sound : Sound anywhere item erase text) {fuel : Nat} {values : List α}
    (closed : cursor.Closed)
    (ran : manyWithin unclosed (separated item reason) fuel cursor = .done values later) :
    ∃ (pieces : List (List Terminal × β)) (listed : List Terminal),
      pieces.map Prod.snd = values.map erase ∧ (∀ piece ∈ pieces, text piece.1 piece.2) ∧
        Listed (pieces.map Prod.fst) listed ∧ cursor.Consumes listed later := by
  induction fuel generalizing cursor values with
  | zero => cases ran
  | succ fuel ih =>
    rw [manyWithin_succ] at ran
    split at ran
    next more =>
      simp only [separated, bind_eq_done, pure_eq_done] at ran
      obtain ⟨_, _, ⟨first, middle, ranFirst, _, after, ranSeparator, rfl, rfl⟩, rest, last, ranRest,
        rfl, rfl⟩ := ran
      obtain ⟨consumed, taken, spelled⟩ := sound _ _ _ closed trivial ranFirst
      have closedMiddle := taken.closed closed
      rcases separator_eq_done.mp ranSeparator with ⟨closing, rfl⟩ | ⟨comma, rfl⟩
      · obtain ⟨rfl, rfl⟩ : rest = [] ∧ middle = last := by
          cases fuel with
          | zero => cases ranRest
          | succ fuel =>
            rw [manyWithin_succ, if_neg (by simp [unclosed, closing])] at ranRest
            cases ranRest
            exact ⟨rfl, rfl⟩
        exact ⟨[(consumed, erase first)], consumed, rfl, by simpa using spelled, .last, taken⟩
      · have after := closedMiddle.consumes_mark comma rfl nofun
        obtain ⟨pieces, listed, same, texts, list, others⟩ := ih (after.closed closedMiddle) ranRest
        refine ⟨(consumed, erase first) :: pieces, consumed ++ .mark .comma :: listed, by simp [same],
          ?_, .cons list, ?_⟩
        · rw [List.forall_mem_cons]
          exact ⟨spelled, texts⟩
        · exact taken.trans (after.trans others)
    next stopped =>
      cases ran
      exact ⟨[], [], rfl, nofun, .nil, rfl⟩

theorem commaSeparated_sound (sound : Sound anywhere item erase text) {values : List α}
    (closed : cursor.Closed) (ran : commaSeparated item reason cursor = .done values later) :
    ∃ (pieces : List (List Terminal × β)) (listed : List Terminal),
      pieces.map Prod.snd = values.map erase ∧ (∀ piece ∈ pieces, text piece.1 piece.2) ∧
        Listed (pieces.map Prod.fst) listed ∧
        cursor.Consumes (.mark .openParen :: listed ++ [.mark .closeParen]) later := by
  simp only [commaSeparated_eq, bind_eq_done, expect_eq_done, pure_eq_done] at ran
  obtain ⟨_, _, ⟨opening, _, rfl⟩, _, middle, ranItems, _, _, ⟨closing, _, rfl⟩, rfl, rfl⟩ := ran
  have opened := closed.consumes_mark opening rfl nofun
  have closedInner := opened.closed closed
  obtain ⟨pieces, listed, same, texts, list, taken⟩ := separatedWithin_sound sound closedInner ranItems
  have closed' := (taken.closed closedInner).consumes_mark closing rfl nofun
  exact ⟨pieces, listed, same, texts, list, opened.trans (taken.trans closed')⟩

variable {bound : Nat}

/-- Where an item of a list ends. -/
def EndsItem (cursor : Cursor) : Prop :=
  cursor.kind = .closeParen ∨ cursor.kind = .comma

theorem separatedWithin_complete {pieces : List (List Terminal × β)} {listed : List Terminal}
    (starts : ∀ piece ∈ pieces, ∀ cursor later : Cursor, cursor.Consumes piece.1 later →
      piece.1 ≠ [] ∧ cursor.kind ≠ .closeParen)
    (each : ∀ piece ∈ pieces, ∀ cursor later, cursor.Consumes piece.1 later → EndsItem later →
      cursor.remaining < bound → ∃ value, item cursor = .done value later ∧ erase value = piece.2)
    (list : Listed (pieces.map Prod.fst) listed) (consumed : cursor.Consumes listed later)
    (closing : later.kind = .closeParen) (near : cursor.remaining < bound) {fuel : Nat}
    (enough : cursor.remaining < fuel) :
    ∃ values, manyWithin unclosed (separated item reason) fuel cursor = .done values later ∧
      values.map erase = pieces.map Prod.snd := by
  induction pieces generalizing cursor listed fuel with
  | nil =>
    cases list
    cases consumed
    obtain ⟨fuel, rfl⟩ : ∃ less, fuel = less + 1 := ⟨fuel - 1, by omega⟩
    exact ⟨[], by rw [manyWithin_succ, if_neg (by simp [unclosed, closing])], rfl⟩
  | cons piece pieces ih =>
    rw [List.forall_mem_cons] at starts each
    obtain ⟨less, rfl⟩ : ∃ less, fuel = less + 1 := ⟨fuel - 1, by omega⟩
    -- The item, and where its separator leads, from where the rest of the list is read.
    obtain ⟨middle, after, rest, taken, ends, separates, listRest, others⟩ :
        ∃ middle after rest, cursor.Consumes piece.1 middle ∧ EndsItem middle ∧
          separator reason middle = .done () after ∧ Listed (pieces.map Prod.fst) rest ∧
          after.Consumes rest later := by
      rw [List.map_cons] at list
      generalize same : pieces.map Prod.fst = items at list
      cases list with
      | last =>
        exact ⟨later, later, [], consumed, .inl closing,
          separator_eq_done.mpr (.inl ⟨closing, rfl⟩), .nil, rfl⟩
      | @cons _ rest _ listRest =>
        rw [Cursor.consumes_append] at consumed
        obtain ⟨middle, taken, others⟩ := consumed
        have comma : middle.kind = .comma := others.kind_eq
        exact ⟨middle, middle.advance, rest, taken, .inr comma,
          separator_eq_done.mpr (.inr ⟨comma, rfl⟩), listRest, others.2.2⟩
    obtain ⟨nonempty, more⟩ := starts.1 _ _ taken
    have fewer := taken.remaining
    have long := List.length_pos_iff.mpr nonempty
    obtain ⟨value, ranFirst, same⟩ := each.1 _ _ taken ends near
    have nearer : after.remaining ≤ middle.remaining := by
      rcases separator_eq_done.mp separates with ⟨_, rfl⟩ | ⟨_, rfl⟩
      · exact Nat.le_refl _
      · exact Cursor.remaining_advance_le middle
    obtain ⟨values, ranRest, sameRest⟩ :=
      ih starts.2 each.2 listRest others (by omega) (show after.remaining < less by omega)
    refine ⟨value :: values, ?_, by simp [same, sameRest]⟩
    have ran : separated item reason cursor = .done value after := by
      rw [separated, bind_done ranFirst, bind_done separates]
      rfl
    rw [manyWithin_succ, if_pos (by simpa [unclosed] using more), bind_done ran, bind_done ranRest]
    rfl

theorem commaSeparated_complete {pieces : List (List Terminal × β)} {listed : List Terminal}
    (starts : ∀ piece ∈ pieces, ∀ cursor later : Cursor, cursor.Consumes piece.1 later →
      piece.1 ≠ [] ∧ cursor.kind ≠ .closeParen)
    (each : ∀ piece ∈ pieces, ∀ cursor later, cursor.Consumes piece.1 later → EndsItem later →
      cursor.remaining < bound → ∃ value, item cursor = .done value later ∧ erase value = piece.2)
    (list : Listed (pieces.map Prod.fst) listed)
    (consumed : cursor.Consumes (.mark .openParen :: listed ++ [.mark .closeParen]) later)
    (near : cursor.remaining < bound + 1) :
    ∃ values, commaSeparated item reason cursor = .done values later ∧
      values.map erase = pieces.map Prod.snd := by
  rw [List.cons_append, Cursor.consumes_cons, Cursor.consumes_append] at consumed
  obtain ⟨opens, more, middle, taken, closes⟩ := consumed
  have opening : cursor.kind = .openParen := by
    rw [Cursor.kind, ← Terminal.kind_of, opens]
    rfl
  have closing : middle.kind = .closeParen := closes.kind_eq
  have fewer := Cursor.remaining_advance more
  obtain ⟨values, ran, same⟩ := separatedWithin_complete starts each list taken closing (by omega)
    (show cursor.advance.remaining < cursor.advance.fuel by
      simp only [Cursor.remaining, Cursor.fuel]; omega)
  refine ⟨values, ?_, same⟩
  have ranItems : many unclosed (separated item reason) cursor.advance = .done values middle := ran
  rw [commaSeparated_eq, bind_done (expect_eq_done.mpr ⟨opening, rfl, rfl⟩), bind_done ranItems,
    bind_done (expect_eq_done.mpr ⟨closing, rfl, closes.2.2⟩)]
  rfl

end

end Parser
end Multiparty
