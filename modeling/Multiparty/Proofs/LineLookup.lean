import Multiparty.Proofs.Lines
import Multiparty.Proofs.Tiling

/-! Looking up a line is exact. Every place up to the end of a text that is not empty has its line. The line is found by
counting characters; its number is that of the line breaks in the bytes before the place, which may well be inside a
character. -/

namespace Multiparty

namespace Text

/-- The bytes of a text in UTF-8. -/
def bytes (chars : List Char) : List UInt8 :=
  chars.flatMap String.utf8EncodeChar

theorem bytes_toList (text : String) : text.toUTF8.data.toList = bytes text.toList := by
  have encoded : text.toByteArray = text.toList.utf8Encode := by
    rw [← String.toByteArray_ofList, String.ofList_toList]
  rw [String.toUTF8_eq_toByteArray, encoded, List.utf8Encode, List.toList_data_toByteArray, bytes]

theorem bytes_append (first second : List Char) : bytes (first ++ second) = bytes first ++ bytes second :=
  List.flatMap_append

theorem length_bytes (chars : List Char) : (bytes chars).length = byteCount chars := by
  induction chars with
  | nil => rfl
  | cons char rest ih =>
    rw [bytes, List.flatMap_cons, List.length_append, String.length_utf8EncodeChar, ← bytes, ih, byteCount_cons]

/-- No other character has the byte of a line break in it. -/
theorem lineBreak_not_mem_utf8EncodeChar {char : Char} (other : char ≠ '\n') :
    10 ∉ String.utf8EncodeChar char := by
  have code : char.val.toNat ≠ 10 := fun same => other (Char.toNat_inj.mp same)
  have apart {byte : Nat} (above : byte ≠ 10) (fits : byte < 256) : (10 : UInt8) ≠ UInt8.ofNat byte := by
    intro same
    have value := congrArg UInt8.toNat same
    rw [UInt8.toNat_ofNat', Nat.mod_eq_of_lt fits] at value
    exact above value.symm
  simp only [String.utf8EncodeChar]
  split_ifs
  all_goals
    simp only [List.mem_cons, List.not_mem_nil, or_false, not_or]
    and_intros
  all_goals exact apart (by omega) (by omega)

theorem count_bytes (chars : List Char) : (bytes chars).count 10 = chars.count '\n' := by
  induction chars with
  | nil => rfl
  | cons char rest ih =>
    rw [bytes, List.flatMap_cons, List.count_append, ← bytes, ih]
    by_cases breaks : char = '\n'
    · subst breaks
      rw [List.count_cons_self, Nat.add_comm]
      rfl
    · rw [List.count_eq_zero.mpr (lineBreak_not_mem_utf8EncodeChar breaks), Nat.zero_add,
        List.count_cons_of_ne breaks]

theorem byteCount_flatten (pieces : List (List Char)) : byteCount pieces.flatten = (pieces.map byteCount).sum := by
  induction pieces with
  | nil => rfl
  | cons piece pieces ih => rw [List.flatten_cons, byteCount_append, ih, List.map_cons, List.sum_cons]

/-- No line break comes before a place in a line, not even if the place is inside a character. -/
theorem count_take_bytes {piece : List Char} {offset : Nat} (single : '\n' ∉ piece.dropLast)
    (inside : offset < byteCount piece) : ((bytes piece).take offset).count 10 = 0 := by
  obtain ⟨front, last, rfl⟩ : ∃ front last, piece = front ++ [last] := by
    refine (List.eq_nil_or_concat' piece).resolve_left ?_
    rintro rfl
    exact Nat.not_lt_zero _ inside
  rw [List.dropLast_concat] at single
  by_cases ends : last = '\n'
  · subst ends
    have before : offset ≤ (bytes front).length := by
      rw [length_bytes]
      rw [byteCount_append] at inside
      exact Nat.le_of_lt_succ inside
    rw [bytes_append, List.take_append_of_le_length before]
    have fewer := (List.take_sublist offset (bytes front)).count_le 10
    rw [count_bytes, List.count_eq_zero.mpr single] at fewer
    exact Nat.le_zero.mp fewer
  · have fewer := (List.take_sublist offset (bytes (front ++ [last]))).count_le 10
    have none : '\n' ∉ front ++ [last] := by simp [single, Ne.symm ends]
    rw [count_bytes, List.count_eq_zero.mpr none] at fewer
    exact Nat.le_zero.mp fewer

end Text
open Text

/-- `pieces` are the text cut after each line break. None is empty, and only the last may lack a line break. -/
inductive CutAfterBreaks : List Char → List (List Char) → Prop
  | nil : CutAfterBreaks [] []
  | last {line : List Char} : line ≠ [] → '\n' ∉ line → CutAfterBreaks line [line]
  | cons {line rest : List Char} {pieces : List (List Char)} : '\n' ∉ line → CutAfterBreaks rest pieces →
    CutAfterBreaks (line ++ '\n' :: rest) ((line ++ ['\n']) :: pieces)

theorem cutAfterBreaks_linePieces (chars : List Char) : CutAfterBreaks chars (linePieces chars) := by
  fun_induction linePieces chars with
  | case1 => exact .nil
  | case2 rest ih => exact @CutAfterBreaks.cons [] rest _ List.not_mem_nil ih
  | case3 char rest inside none ih =>
    rw [none] at ih
    cases ih
    exact .last (List.cons_ne_nil _ _) (by simpa using Ne.symm inside)
  | case4 char rest inside piece more some ih =>
    rw [some] at ih
    cases ih with
    | last nonempty single =>
      exact .last (List.cons_ne_nil _ _) (List.not_mem_cons_of_ne_of_not_mem (Ne.symm inside) single)
    | @cons line rest _ single cut =>
      exact @CutAfterBreaks.cons (char :: line) rest _
        (List.not_mem_cons_of_ne_of_not_mem (Ne.symm inside) single) cut

/-- There is one way to cut a text. -/
theorem cutAfterBreaks_iff {chars : List Char} {pieces : List (List Char)} :
    CutAfterBreaks chars pieces ↔ pieces = linePieces chars := by
  constructor
  · intro cut
    induction cut with
    | nil => rfl
    | @last line nonempty single =>
      obtain ⟨front, last, rfl⟩ := (List.eq_nil_or_concat' line).resolve_left nonempty
      rw [List.mem_append, not_or] at single
      have alone : linePieces [last] = [[last]] := by
        rw [linePieces, if_neg (Ne.symm (by simpa using single.2)), linePieces]
      exact (linePieces_append_of_cut single.1 alone).symm
    | cons single _ ih => rw [linePieces_line single, ih]
  · rintro rfl
    exact cutAfterBreaks_linePieces chars

namespace CutAfterBreaks
variable {chars piece : List Char} {pieces before after : List (List Char)}

theorem joined (cut : CutAfterBreaks chars pieces) : pieces.flatten = chars := by
  induction cut with
  | nil => rfl
  | last => exact List.flatten_singleton
  | cons _ _ ih => rw [List.flatten_cons, ih, List.append_assoc, List.singleton_append]

theorem single (cut : CutAfterBreaks chars pieces) : ∀ piece ∈ pieces, '\n' ∉ piece.dropLast := by
  induction cut with
  | nil => nofun
  | last _ single =>
    rw [List.forall_mem_singleton]
    exact fun among => single (List.mem_of_mem_dropLast among)
  | cons single _ ih =>
    rw [List.forall_mem_cons, List.dropLast_concat]
    exact ⟨single, ih⟩

/-- Every line before another ends with its line break. -/
theorem count_before (cut : CutAfterBreaks chars pieces) (split : pieces = before ++ piece :: after) :
    before.flatten.count '\n' = before.length := by
  induction cut generalizing before with
  | nil => cases before <;> cases split
  | last =>
    obtain ⟨rfl, -⟩ := List.append_eq_singleton_iff.mp split.symm |>.resolve_right (by simp)
    rfl
  | cons single _ ih =>
    cases before with
    | nil => rfl
    | cons first before =>
      obtain ⟨rfl, others⟩ := List.cons.inj split
      rw [List.flatten_cons, List.count_append, ih others, List.count_append, List.count_eq_zero.mpr single,
        List.length_cons, Nat.add_comm]
      rfl

end CutAfterBreaks

namespace Line

theorem among?_eq_none_iff {number offset : Nat} {pieces : List (List Char)} :
    among? number offset pieces = none ↔ byteCount pieces.flatten < offset ∨ pieces = [] := by
  fun_induction among? number offset pieces with
  | case1 => exact iff_of_true rfl (.inr rfl)
  | case2 number offset last fits => simp [Nat.not_lt.mpr fits]
  | case3 number offset last past => simp [Nat.not_le.mp past]
  | case4 number offset piece next more inside =>
    rw [List.flatten_cons, byteCount_append]
    exact iff_of_false nofun (not_or.mpr ⟨by omega, List.cons_ne_nil _ _⟩)
  | case5 number offset piece next more past ih =>
    have whole : byteCount (piece :: next :: more).flatten = byteCount piece + byteCount (next :: more).flatten := by
      rw [List.flatten_cons, byteCount_append]
    rw [ih, or_iff_left (List.cons_ne_nil _ _), or_iff_left (List.cons_ne_nil _ _), whole]
    omega

theorem among?_eq_some {number offset : Nat} {pieces : List (List Char)} {line : Line}
    (found : among? number offset pieces = some line) : ∃ before after,
      pieces = before ++ line.text :: after ∧ line.number = number + before.length ∧
      byteCount before.flatten + line.offset = offset ∧
      (line.offset < byteCount line.text ∨ after = [] ∧ line.offset = byteCount line.text) := by
  fun_induction among? number offset pieces with
  | case1 => cases found
  | case2 number offset last fits =>
    cases found
    exact ⟨[], [], rfl, rfl, Nat.zero_add _, by simp; omega⟩
  | case3 => cases found
  | case4 number offset piece next more inside =>
    cases found
    exact ⟨[], next :: more, rfl, rfl, Nat.zero_add _, .inl inside⟩
  | case5 number offset piece next more past ih =>
    obtain ⟨before, after, same, numbered, placed, ends⟩ := ih found
    refine ⟨piece :: before, after, by rw [same]; rfl, ?_, ?_, ends⟩
    · rw [numbered, List.length_cons]
      omega
    · rw [List.flatten_cons, byteCount_append]
      omega

/-- What it means that a line holds a place of a text: the line is the one of its number, and the lines before it with
`offset` lead to the place. The end of the text is held by its last line. -/
structure Holds (content : String) (position : Nat) (line : Line) : Prop where
  numbered : 1 ≤ line.number
  cut : (linePieces content.toList)[line.number - 1]? = some line.text
  placed : (((linePieces content.toList).take (line.number - 1)).map byteCount).sum + line.offset = position
  inside : position < content.utf8ByteSize → line.offset < byteCount line.text ∧
    line.number = 1 + (content.toUTF8.data.toList.take position).count 10
  ended : position = content.utf8ByteSize →
    line.number = (linePieces content.toList).length ∧ line.offset = byteCount line.text

theorem holds_of_at? {content : String} {position : Nat} {line : Line} (found : at? content position = some line) :
    Holds content position line := by
  obtain ⟨before, after, split, numbered, placed, ends⟩ := among?_eq_some found
  have cut := cutAfterBreaks_linePieces content.toList
  have whole : content.toList = before.flatten ++ (line.text ++ after.flatten) := by
    rw [← cut.joined, split, List.flatten_append, List.flatten_cons]
  have size : content.utf8ByteSize = byteCount before.flatten + (byteCount line.text + byteCount after.flatten) := by
    rw [← byteCount_toList, whole, byteCount_append, byteCount_append]
  have index : line.number - 1 = before.length := by omega
  refine ⟨by omega, ?cut, ?placed, ?inside, ?ended⟩
  case cut => rw [index, split, List.getElem?_append_right (Nat.le_refl _), Nat.sub_self, List.getElem?_cons_zero]
  case placed => rw [index, split, List.take_left, ← byteCount_flatten, placed]
  case inside =>
    intro within
    have short : line.offset < byteCount line.text := by
      rcases ends with short | ⟨rfl, full⟩
      · exact short
      · rw [List.flatten_nil, byteCount_nil] at size
        omega
    have unbroken : '\n' ∉ line.text.dropLast := cut.single line.text (by rw [split]; simp)
    have fits : line.offset ≤ (bytes line.text).length := by
      rw [length_bytes]
      exact Nat.le_of_lt short
    refine ⟨short, ?_⟩
    rw [bytes_toList, whole, bytes_append, bytes_append, ← placed, ← length_bytes, List.take_length_add_append,
      List.take_append_of_le_length fits, List.count_append, count_bytes, cut.count_before split,
      count_take_bytes unbroken short, numbered, Nat.add_zero]
  case ended =>
    intro last
    rcases ends with short | ⟨rfl, full⟩
    · omega
    · exact ⟨by rw [split, numbered, List.length_append, List.length_singleton, Nat.add_comm], full⟩

/-- A text cut after each line break gives the lines among which a place is looked up. Nothing is found past the end and
in an empty text; everywhere else the line that holds the place. -/
theorem at?_holds (content : String) (position : Nat) :
    (∀ pieces, CutAfterBreaks content.toList pieces ↔ pieces = linePieces content.toList) ∧
      (at? content position = none ↔ content.utf8ByteSize < position ∨ content = "") ∧
      ∀ line, at? content position = some line → Holds content position line := by
  refine ⟨fun pieces => cutAfterBreaks_iff, ?_, fun line => holds_of_at?⟩
  have cut := cutAfterBreaks_linePieces content.toList
  have empty : linePieces content.toList = [] ↔ content = "" := by
    constructor
    · intro none
      have joined := cut.joined
      rw [none] at joined
      exact String.toList_eq_nil_iff.mp joined.symm
    · rintro rfl
      rfl
  rw [at?, among?_eq_none_iff, cut.joined, byteCount_toList, empty]

/-- The second line is found for a place inside its first character, and the third, which is empty but for its line
break, for the end of the text. -/
theorem at?_holds_wide_character :
    let content := "a\né\n\n"
    at? content 3 = some ⟨2, ['é', '\n'], 1⟩ ∧ Holds content 3 ⟨2, ['é', '\n'], 1⟩ ∧
      at? content 6 = some ⟨3, ['\n'], 1⟩ ∧ Holds content 6 ⟨3, ['\n'], 1⟩ := by
  intro content
  have inside : at? content 3 = some ⟨2, ['é', '\n'], 1⟩ := by decide
  have ended : at? content 6 = some ⟨3, ['\n'], 1⟩ := by decide
  exact ⟨inside, (at?_holds content 3).2.2 _ inside, ended, (at?_holds content 6).2.2 _ ended⟩

end Line
end Multiparty
