import Mathlib.Data.List.DropRight
import Multiparty.Source.Line

/-! The lines of a text, and the line that a place is on: it is found by the bytes before the place, and its number is by
one more than the line breaks before it. -/

namespace Multiparty

section
variable {α : Type} {among : α → Bool} {item : α}

/-- What is taken ends at the latest where an item does not belong. -/
theorem takeWhile_append_cons_of_not (stops : among item = false) (front rest : List α) :
    (front ++ item :: rest).takeWhile among = front.takeWhile among := by
  induction front with
  | nil => simp [stops]
  | cons first front ih =>
    by_cases goesOn : among first
    · simp [goesOn, ih]
    · simp [goesOn]

theorem dropWhile_append_cons_of_not (stops : among item = false) (front rest : List α) :
    (front ++ item :: rest).dropWhile among = front.dropWhile among ++ item :: rest := by
  induction front with
  | nil => simp [stops]
  | cons first front ih =>
    by_cases goesOn : among first
    · simp [goesOn, ih]
    · simp [goesOn]

end

namespace Text

/-- What stands on the line of a place before it, where `before` is all the text before the place. -/
def lineBefore (before : List Char) : List Char :=
  before.rtakeWhile (· ≠ '\n')

theorem lineBreak_not_mem_lineBefore (before : List Char) : '\n' ∉ lineBefore before := by
  intro among
  simpa using List.mem_rtakeWhile_imp among

theorem lineBefore_eq_self {before : List Char} (single : '\n' ∉ before) : lineBefore before = before := by
  rw [lineBefore, List.rtakeWhile_eq_self_iff]
  intro char among
  simpa using ne_of_mem_of_not_mem among single

/-- Earlier lines do not matter. -/
theorem lineBefore_append (line rest : List Char) : lineBefore (line ++ '\n' :: rest) = lineBefore rest := by
  rw [lineBefore, List.rtakeWhile, List.reverse_append, List.reverse_cons, List.append_assoc,
    List.singleton_append]
  exact congrArg List.reverse (takeWhile_append_cons_of_not (by decide) rest.reverse line.reverse)

end Text

theorem linePieces_cons {char : Char} {rest piece : List Char} {more : List (List Char)} (inside : char ≠ '\n')
    (cut : linePieces rest = piece :: more) : linePieces (char :: rest) = (char :: piece) :: more := by
  rw [linePieces, if_neg inside, cut]

/-- The first line of a text is its beginning up to the first line break. -/
theorem exists_linePieces_cons (char : Char) (rest : List Char) :
    ∃ tail more, linePieces (char :: rest) = (char :: tail) :: more ∧
      (char ≠ '\n' → ∃ body, '\n' ∉ body ∧ (tail = body ∨ tail = body ++ ['\n'])) := by
  induction rest generalizing char with
  | nil => exact ⟨[], [], by simp [linePieces], fun _ => ⟨[], List.not_mem_nil, .inl rfl⟩⟩
  | cons next rest ih =>
    by_cases breaks : char = '\n'
    · exact ⟨[], linePieces (next :: rest), by rw [linePieces, if_pos breaks], fun inside => absurd breaks inside⟩
    · obtain ⟨tail, more, cut, shape⟩ := ih next
      refine ⟨next :: tail, more, linePieces_cons breaks cut, fun _ => ?_⟩
      by_cases ends : next = '\n'
      · subst ends
        rw [linePieces, if_pos rfl] at cut
        obtain rfl := (List.cons.inj (List.cons.inj cut).1).2
        exact ⟨[], List.not_mem_nil, .inr rfl⟩
      · obtain ⟨body, single, whole⟩ := shape ends
        refine ⟨next :: body, List.not_mem_cons_of_ne_of_not_mem (Ne.symm ends) single, ?_⟩
        exact whole.imp (congrArg (next :: ·)) (congrArg (next :: ·))

theorem exists_linePieces {chars : List Char} (nonempty : chars ≠ []) :
    ∃ piece more, linePieces chars = piece :: more := by
  obtain ⟨char, rest, rfl⟩ := List.exists_cons_of_ne_nil nonempty
  obtain ⟨tail, more, cut, -⟩ := exists_linePieces_cons char rest
  exact ⟨_, more, cut⟩

/-- Text without a line break joins the line after it. -/
theorem linePieces_append_of_cut {front chars piece : List Char} {more : List (List Char)} (single : '\n' ∉ front)
    (cut : linePieces chars = piece :: more) : linePieces (front ++ chars) = (front ++ piece) :: more := by
  induction front with
  | nil => exact cut
  | cons char front ih =>
    rw [List.mem_cons, not_or] at single
    exact linePieces_cons (Ne.symm single.1) (ih single.2)

theorem linePieces_line {line : List Char} (single : '\n' ∉ line) (rest : List Char) :
    linePieces (line ++ '\n' :: rest) = (line ++ ['\n']) :: linePieces rest := by
  apply linePieces_append_of_cut single
  rw [linePieces, if_pos rfl]

/-- A line break parts the lines before it from those after it. -/
theorem linePieces_append (front rest : List Char) :
    linePieces (front ++ '\n' :: rest) = linePieces (front ++ ['\n']) ++ linePieces rest := by
  induction front with
  | nil => simp [linePieces]
  | cons char front ih =>
    by_cases breaks : char = '\n'
    · subst breaks
      simp [linePieces, ih]
    · obtain ⟨piece, more, cut⟩ := @exists_linePieces (front ++ ['\n']) (by simp)
      rw [cut] at ih
      rw [List.cons_append, List.cons_append, linePieces_cons breaks ih, linePieces_cons breaks cut]
      rfl

namespace Line
open Text

/-- The line of a place where a character begins, looked up from the place of the line that is counted as `number`. -/
theorem among?_linePieces {char : Char} {after piece : List Char} {more : List (List Char)}
    (cut : linePieces (char :: after) = piece :: more) (before : List Char) (number : Nat) :
    among? number (byteCount before) (linePieces (before ++ char :: after)) =
      some ⟨number + before.count '\n', lineBefore before ++ piece, byteCount (lineBefore before)⟩ := by
  induction lines : before.count '\n' generalizing before number with
  | zero =>
    have single : '\n' ∉ before := List.count_eq_zero.mp lines
    obtain ⟨tail, others, same, -⟩ := exists_linePieces_cons char after
    obtain ⟨rfl, rfl⟩ := List.cons.inj (cut.symm.trans same)
    have size := char.utf8Size_pos
    have inside : byteCount before < byteCount (before ++ char :: tail) := by
      rw [byteCount_append, byteCount_cons]
      omega
    rw [linePieces_append_of_cut single cut, lineBefore_eq_self single]
    cases more with
    | nil => rw [among?, if_pos (Nat.le_of_lt inside), Nat.add_zero]
    | cons next more => rw [among?, if_pos inside, Nat.add_zero]
  | succ count ih =>
    have among : '\n' ∈ before := List.count_pos_iff.mp (by omega)
    obtain ⟨line, rest, rfl, single⟩ := List.eq_append_cons_of_mem among
    rw [List.count_append, List.count_cons_self, List.count_eq_zero.mpr single] at lines
    obtain ⟨next, others, later⟩ := @exists_linePieces (rest ++ char :: after) (by simp)
    have passed : byteCount (line ++ '\n' :: rest) = byteCount (line ++ ['\n']) + byteCount rest := by
      rw [List.append_cons, byteCount_append]
    have further := ih rest (number + 1) (by omega)
    rw [later] at further
    rw [List.append_assoc, List.cons_append, linePieces_line single, later, among?,
      if_neg (by omega), passed, Nat.add_sub_cancel_left, further, lineBefore_append]
    congr 2
    omega

end Line
end Multiparty
