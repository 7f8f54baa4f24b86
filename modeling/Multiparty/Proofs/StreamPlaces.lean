import Multiparty.Parsing.Progress

/-! Where a cursor stands: at one of the tokens of a stream that never changes. Consuming tokens leads it to the same
place or further on. -/

namespace Multiparty.Cursor
open Token

/-- Where the last of the tokens ends, or the file starts if there are none. -/
def endOf (file : String) (tokens : List Token) : Position :=
  (tokens.getLast?.map fun last => last.span.stop).getD ⟨0, file⟩

/-- The tokens that are read: those of the list, and an end-of-input token if it does not end with one. -/
def stream (file : String) (tokens : List Token) : List Token :=
  if tokens.getLast?.map Token.kind = some .endOfInput then tokens
  else tokens ++ [endOfInput (endOf file tokens)]

/-- The cursor stands at the token with that index, and knows where the token before it ends. -/
structure Stands (file : String) (stream : List Token) (index : Nat) (cursor : Cursor) : Prop where
  left : stream.drop index = cursor.current :: cursor.ahead
  behind : cursor.behind = endOf file (stream.take index)
  closed : cursor.Closed

theorem stream_ended (file : String) (tokens : List Token) :
    ∃ body last, stream file tokens = body ++ [last] ∧ last.kind = .endOfInput := by
  unfold stream
  split
  next ended =>
    obtain ⟨last, isLast, kind⟩ := Option.map_eq_some_iff.mp ended
    obtain ⟨body, whole⟩ := List.getLast?_eq_some_iff.mp isLast
    exact ⟨body, last, whole, kind⟩
  next => exact ⟨tokens, _, rfl, rfl⟩

theorem cons_closedAfter (file : String) (first : Token) (rest : List Token) :
    first :: closedAfter first rest = stream file (first :: rest) := by
  induction rest generalizing first with
  | nil =>
    rw [closedAfter, stream]
    simp only [List.getLast?_singleton, Option.map_some, Option.some.injEq]
    split
    next => rfl
    next => rfl
  | cons next rest ih =>
    rw [closedAfter, ih, stream, stream, List.getLast?_cons_cons, endOf, endOf, List.getLast?_cons_cons]
    split
    next => rfl
    next => rfl

theorem ofTokens_stands (file : String) (tokens : List Token) :
    (ofTokens file tokens).Stands file (stream file tokens) 0 := by
  refine ⟨?_, ?_, ofTokens_closed file tokens⟩
  · cases tokens with
    | nil => rfl
    | cons first rest => exact (cons_closedAfter file first rest).symm
  · cases tokens <;> rfl

section
variable {file : String} {tokens : List Token} {index : Nat} {cursor later : Cursor}

theorem Stands.remaining (stands : cursor.Stands file tokens index) :
    cursor.remaining + index + 1 = tokens.length := by
  have length := congrArg List.length stands.left
  rw [List.length_drop, List.length_cons] at length
  rw [Cursor.remaining]
  omega

theorem Stands.current (stands : cursor.Stands file tokens index) : tokens[index]? = some cursor.current := by
  rw [← List.head?_drop, stands.left, List.head?_cons]

/-- While there are tokens ahead, the cursor moves on by one. -/
theorem Stands.next (stands : cursor.Stands file tokens index) (more : cursor.ahead ≠ []) :
    cursor.advance.Stands file tokens (index + 1) := by
  have current := stands.current
  obtain ⟨left, -, closed⟩ := stands
  have further := closed.advance
  obtain ⟨behind, token, ahead⟩ := cursor
  obtain ⟨next, rest, rfl⟩ := List.exists_cons_of_ne_nil more
  refine ⟨?_, ?_, further⟩
  · rw [← List.drop_drop, left]
    rfl
  · rw [endOf, List.take_add_one, current]
    simp [Cursor.advance]

theorem Stands.advance (stands : cursor.Stands file tokens index) :
    ∃ next, index ≤ next ∧ cursor.advance.Stands file tokens next := by
  by_cases more : cursor.ahead = []
  · have stays : cursor.advance = cursor := by rw [Cursor.advance, more]
    exact ⟨index, Nat.le_refl _, by rwa [stays]⟩
  · exact ⟨index + 1, Nat.le_succ _, stands.next more⟩

theorem Stands.reaches (stands : cursor.Stands file tokens index) (reached : cursor.Reaches later) :
    ∃ next, index ≤ next ∧ later.Stands file tokens next := by
  induction reached with
  | start => exact ⟨index, Nat.le_refl _, stands⟩
  | step _ ih =>
    obtain ⟨middle, before, there⟩ := ih
    obtain ⟨next, after, stands⟩ := there.advance
    exact ⟨next, Nat.le_trans before after, stands⟩

end

end Multiparty.Cursor
