import Multiparty.Diagnostic.Report
import Multiparty.Proofs.DiagnosticPlaces
import Multiparty.Proofs.Lines

/-! Where the caret of a report stands. The caret is placed by bytes, and the line above it is shown in characters; the
caret is moved for spaces and tabs at the start of the line, and the line is shown without any white space there. So the
caret is under the character that the diagnostic is about just where these counts agree, and further right elsewhere. -/

namespace Multiparty
open Text

theorem isBlank_of_isIndent (char : Char) (indent : isIndent char) : isBlank char := by
  rw [isIndent, Bool.or_eq_true, beq_iff_eq, beq_iff_eq] at indent
  rcases indent with rfl | rfl <;> rfl

theorem length_le_byteCount (chars : List Char) : chars.length ≤ byteCount chars := by
  induction chars with
  | nil => rfl
  | cons char rest ih =>
    have positive := char.utf8Size_pos
    rw [List.length_cons, byteCount_cons]
    omega

theorem byteCount_eq_length_iff (chars : List Char) :
    byteCount chars = chars.length ↔ ∀ char ∈ chars, char.utf8Size = 1 := by
  induction chars with
  | nil => simp
  | cons char rest ih =>
    have positive := char.utf8Size_pos
    have further := length_le_byteCount rest
    rw [List.forall_mem_cons, ← ih, List.length_cons, byteCount_cons]
    omega

section
variable {α : Type} {narrow wide : α → Bool} (narrower : ∀ item, narrow item → wide item)
include narrower

theorem dropWhile_dropWhile_of_imp (items : List α) :
    (items.dropWhile narrow).dropWhile wide = items.dropWhile wide := by
  induction items with
  | nil => rfl
  | cons item items ih =>
    by_cases first : narrow item
    · rw [List.dropWhile_cons_of_pos first, ih, List.dropWhile_cons_of_pos (narrower item first)]
    · rw [List.dropWhile_cons_of_neg first]

theorem takeWhile_length_le (items : List α) : (items.takeWhile narrow).length ≤ (items.takeWhile wide).length := by
  induction items with
  | nil => rfl
  | cons item items ih =>
    by_cases first : narrow item
    · rw [List.takeWhile_cons_of_pos first, List.takeWhile_cons_of_pos (narrower item first)]
      exact Nat.succ_le_succ ih
    · rw [List.takeWhile_cons_of_neg first]
      exact Nat.zero_le _

theorem takeWhile_length_eq_iff (items : List α) :
    (items.takeWhile wide).length = (items.takeWhile narrow).length ↔ ∀ item ∈ items.takeWhile wide, narrow item := by
  induction items with
  | nil => simp
  | cons item items ih =>
    by_cases first : narrow item
    · rw [List.takeWhile_cons_of_pos first, List.takeWhile_cons_of_pos (narrower item first), List.forall_mem_cons,
        ← ih, List.length_cons, List.length_cons, Nat.add_right_cancel_iff]
      exact (and_iff_right first).symm
    · rw [List.takeWhile_cons_of_neg first]
      by_cases second : wide item
      · rw [List.takeWhile_cons_of_pos second, List.forall_mem_cons]
        simp [first]
      · rw [List.takeWhile_cons_of_neg second]
        simp

end

namespace Line

/-- The columns between the caret and the character after `front`: one for each byte of a character beyond its first,
and one for each blank at the start of the line that is neither a space nor a tab. -/
def drift (front : List Char) : Nat :=
  (byteCount front - front.length) + ((front.takeWhile isBlank).length - (front.takeWhile isIndent).length)

theorem drift_eq_zero_iff (front : List Char) : drift front = 0 ↔
    (∀ char ∈ front, char.utf8Size = 1) ∧ ∀ char ∈ front.takeWhile isBlank, isIndent char := by
  have bytes := length_le_byteCount front
  have blanks := takeWhile_length_le isBlank_of_isIndent front
  rw [← byteCount_eq_length_iff, ← takeWhile_length_eq_iff isBlank_of_isIndent, drift]
  omega

/-- What is shown of the line before the character, with the columns that the caret is off. -/
theorem length_add_drift (front : List Char) : (front.dropWhile isBlank).length + drift front =
    byteCount front - (front.takeWhile isIndent).length := by
  have bytes := length_le_byteCount front
  have blanks := takeWhile_length_le isBlank_of_isIndent front
  have whole := congrArg List.length (@List.takeWhile_append_dropWhile _ isBlank front)
  rw [List.length_append] at whole
  rw [drift]
  omega

/-- The character stays in the line that is shown, after what is left of the text before it. -/
theorem exists_shown {line : Line} {front body : List Char} {char : Char} (seen : isBlank char = false)
    (inside : '\n' ∉ front) (single : '\n' ∉ body)
    (whole : line.text = front ++ char :: body ∨ line.text = front ++ char :: (body ++ ['\n'])) :
    ∃ rest, line.shown.toList = front.dropWhile isBlank ++ char :: rest ∧ '\n' ∉ line.shown.toList := by
  obtain ⟨tail, whole, trimmed⟩ : ∃ tail, line.text = front ++ char :: tail ∧
      '\n' ∉ (tail.reverse.dropWhile isBlank).reverse := by
    rcases whole with whole | whole
    · refine ⟨body, whole, fun among => single ?_⟩
      exact List.mem_reverse.mp ((List.dropWhile_sublist _).subset (List.mem_reverse.mp among))
    · refine ⟨body ++ ['\n'], whole, fun among => single ?_⟩
      rw [List.reverse_append, List.reverse_singleton, List.singleton_append,
        List.dropWhile_cons_of_pos (by rfl)] at among
      exact List.mem_reverse.mp ((List.dropWhile_sublist _).subset (List.mem_reverse.mp among))
  have shown : line.shown.toList =
      front.dropWhile isBlank ++ char :: (tail.reverse.dropWhile isBlank).reverse := by
    rw [shown, String.toList_ofList, trim, dropWhile_dropWhile_of_imp isBlank_of_isIndent, whole,
      dropWhile_append_cons_of_not seen, List.reverse_append, List.reverse_cons, List.append_assoc,
      List.singleton_append, dropWhile_append_cons_of_not seen, List.reverse_append, List.reverse_cons,
      List.reverse_reverse, List.append_assoc, List.singleton_append]
  refine ⟨_, shown, ?_⟩
  rw [shown, List.mem_append, List.mem_cons, not_or, not_or]
  refine ⟨fun among => inside ((List.dropWhile_sublist _).subset among), ?_, trimmed⟩
  rintro rfl
  cases seen

end Line

/-- The last two lines of the report quote a line of the source and point into it. `char` is in the quoted line after
the number of the line and after `front` without the white space at its start; the one caret of the other line is
`shift` columns further right. -/
def Points (report : String) (number : Nat) (front : List Char) (char : Char) (shift : Nat) : Prop :=
  let lead := (toString number).toList ++ " | ".toList ++ front.dropWhile isBlank
  ∃ above rest caret, linePieces report.toList = above ++ [lead ++ char :: rest, caret] ∧
    caret.count '^' = 1 ∧ caret[lead.length + shift]? = some '^'

theorem lineBreak_not_mem_toString (number : Nat) : '\n' ∉ (toString number).toList := by
  intro among
  have printed : (toString number).toList = Nat.toDigits 10 number := String.toList_ofList
  rw [printed] at among
  have digit := Nat.isDigit_of_mem_toDigits (by decide) (by decide) among
  cases digit

namespace Line

/-- The margin is as wide as the number with a blank after it, and has a bar in the column of the one that follows the
number. -/
def margin (number : Nat) : List Char :=
  List.replicate ((toString number).toList.length + 1) ' ' ++ ['|']

/-- The line with the caret, where `width` columns come before it. -/
def caretLine (number width : Nat) : List Char :=
  margin number ++ ' ' :: (List.replicate width '-' ++ ['^'])

theorem excerpt_toList (line : Line) : line.excerpt.toList = margin line.number ++ '\n' ::
    ((toString line.number).toList ++ " | ".toList ++ line.shown.toList ++ '\n' ::
      (caretLine line.number (line.caretWidth - 1) ++ ['\n'])) := by
  have lineBreak : "\n".toList = ['\n'] := rfl
  have bar : "|".toList = ['|'] := rfl
  have space : " ".toList = [' '] := rfl
  have caret : "^".toList = ['^'] := rfl
  have single : "|".length = 1 ∧ "^".length = 1 := ⟨rfl, rfl⟩
  simp only [excerpt, alignRight, String.toList_append, String.toList_ofList, single, lineBreak, bar, space, caret,
    margin, caretLine, String.length_toList, List.append_assoc, List.cons_append]
  rfl

theorem lineBreak_not_mem_caretLine (number width : Nat) : '\n' ∉ caretLine number width := by
  simp [caretLine, margin]

theorem count_caretLine (number width : Nat) : (caretLine number width).count '^' = 1 := by
  simp [caretLine, margin, List.count_append, List.count_replicate]

theorem getElem?_caretLine (number width : Nat) :
    (caretLine number width)[(toString number).toList.length + 3 + width]? = some '^' := by
  have before : (margin number ++ ' ' :: List.replicate width '-').length =
      (toString number).toList.length + 3 + width := by
    simp [margin]
    omega
  rw [caretLine, ← List.cons_append, ← List.append_assoc, ← before]
  exact List.getElem?_concat_length

/-- The caret stands where the bytes of the line lead it. -/
theorem excerpt_points {line : Line} {front body : List Char} {char : Char} (seen : isBlank char = false)
    (inside : '\n' ∉ front) (single : '\n' ∉ body)
    (whole : line.text = front ++ char :: body ∨ line.text = front ++ char :: (body ++ ['\n']))
    (placed : line.offset = byteCount front) (above : String) :
    Points (above ++ line.excerpt) line.number front char (drift front) := by
  obtain ⟨rest, shown, unbroken⟩ := exists_shown seen inside single whole
  have indent : line.text.takeWhile isIndent = front.takeWhile isIndent := by
    have stops : isIndent char = false := by
      rw [← Bool.not_eq_true]
      intro indent
      rw [isBlank_of_isIndent char indent] at seen
      cases seen
    rcases whole with whole | whole <;> rw [whole, takeWhile_append_cons_of_not stops]
  have width : line.caretWidth - 1 = (front.dropWhile isBlank).length + drift front := by
    rw [caretWidth, indent, placed, length_add_drift, Nat.add_sub_cancel]
  have quoted : '\n' ∉ (toString line.number).toList ++ " | ".toList ++ line.shown.toList := by
    have bar : '\n' ∉ " | ".toList := by decide
    simp only [List.mem_append, lineBreak_not_mem_toString, bar, unbroken, or_self, not_false_eq_true]
  refine ⟨linePieces (above.toList ++ margin line.number ++ ['\n']), rest ++ ['\n'],
    caretLine line.number (line.caretWidth - 1) ++ ['\n'], ?lines, ?one, ?column⟩
  case lines =>
    rw [String.toList_append, excerpt_toList, ← List.append_assoc, linePieces_append, linePieces_line quoted,
      linePieces_line (lineBreak_not_mem_caretLine _ _), shown]
    simp only [linePieces, List.append_assoc, List.cons_append]
  case one => rw [List.count_append, count_caretLine]; rfl
  case column =>
    have caret := getElem?_caretLine line.number (line.caretWidth - 1)
    have before : ((toString line.number).toList ++ " | ".toList ++ front.dropWhile isBlank).length + drift front =
        (toString line.number).toList.length + 3 + (line.caretWidth - 1) := by
      have bar : " | ".toList.length = 3 := rfl
      rw [width, List.length_append, List.length_append, bar, Nat.add_assoc]
    rw [before]
    obtain ⟨bound, -⟩ := List.getElem?_eq_some_iff.mp caret
    rwa [List.getElem?_append_left bound]

end Line

/-- Where a character that is no white space begins at the place of a diagnostic, its report points to the line of that
character, and the caret is right of it by what the line before it makes it drift. -/
theorem Diagnostic.report_points {content : String} {before after : List Char} {char : Char} {diagnostic : Diagnostic}
    (whole : content.toList = before ++ char :: after) (placed : byteCount before = diagnostic.position.offset)
    (seen : isBlank char = false) (file : String) :
    Points (diagnostic.report content file) (1 + before.count '\n') (lineBefore before) char
      (Line.drift (lineBefore before)) := by
  obtain ⟨tail, more, cut, shape⟩ := exists_linePieces_cons char after
  have inside : char ≠ '\n' := by
    rintro rfl
    cases seen
  obtain ⟨body, single, ends⟩ := shape inside
  have found : Line.at? content diagnostic.position.offset =
      some ⟨1 + before.count '\n', lineBefore before ++ char :: tail, byteCount (lineBefore before)⟩ := by
    rw [Line.at?, whole, ← placed]
    exact Line.among?_linePieces cut before 1
  rw [report, found]
  refine Line.excerpt_points seen (lineBreak_not_mem_lineBefore before) single ?_ rfl _
  rcases ends with rfl | rfl
  · exact .inl rfl
  · exact .inr rfl

namespace Token

/-- No token begins with white space. -/
theorem Spells.seen {after value text : List Char} {kind : Kind} (spells : Spells after kind value text) :
    ∃ first tail, text = first :: tail ∧ isBlank first = false := by
  obtain ⟨first, tail, rfl, scanned⟩ := scan?_of_spells spells
  refine ⟨first, tail, rfl, ?_⟩
  rw [← Bool.not_eq_true]
  intro blank
  rw [scan?_blank blank] at scanned
  cases scanned

theorem Tiling.seen {file : String} {source : List Char} {start : Position} {tokens : List Token}
    (tiling : Tiling file source start tokens) {token : Token} (among : token ∈ tokens)
    (inside : token.span.start.offset < byteCount source) : ∃ before char after,
      source = before ++ char :: after ∧ byteCount before = token.span.start.offset ∧ isBlank char = false := by
  have begins : token.kind ≠ .endOfInput := by
    intro last
    obtain ⟨body, rfl, further⟩ := tiling.ended
    rcases List.mem_append.mp among with earlier | final
    · exact further token earlier last
    · rw [List.mem_singleton.mp final] at inside
      exact Nat.lt_irrefl _ inside
  obtain ⟨-, text, after, ⟨before, whole, place⟩, spells⟩ := tiling.spelled token among begins
  obtain ⟨first, tail, rfl, seen⟩ := spells.seen
  refine ⟨before, first, tail ++ after, whole, ?_, seen⟩
  rw [place]

end Token

section
variable {options : Typing.Options} {source file : String} {diagnostic : Diagnostic}

/-- A diagnostic within a source that fits into 32 bits stands at a character that can be seen. -/
theorem seen_of_checkSource (small : source.utf8ByteSize < 2 ^ 32)
    (refused : checkSource options source file = .error diagnostic)
    (inside : diagnostic.position.offset < source.utf8ByteSize) : ∃ before char after,
      source.toList = before ++ char :: after ∧ byteCount before = diagnostic.position.offset ∧
        isBlank char = false := by
  have located := located_of_checkSource small refused
  rw [← byteCount_toList] at inside
  have atToken {tokens : List Token} (listed : Token.list source (some file) = .ok tokens) {token : Token}
      (among : token ∈ tokens) (place : token.span.start = diagnostic.position) : ∃ before char after,
        source.toList = before ++ char :: after ∧ byteCount before = diagnostic.position.offset ∧
          isBlank char = false := by
    rw [← place] at inside ⊢
    exact (Token.tiling_of_list small listed).seen among inside
  cases cause : diagnostic.cause with
  | unrecognised text =>
    obtain ⟨other, failed⟩ := located.lexical.mp ⟨text, cause⟩
    rw [checkSource, parseSource, failed] at refused
    cases refused
    obtain ⟨before, char, after, _, whole, -, scanned, rfl⟩ := Token.list_eq_error small failed
    refine ⟨before, char, after, whole, rfl, ?_⟩
    rw [← Bool.not_eq_true]
    intro blank
    rw [Token.scan?_blank blank] at scanned
    cases scanned
  | violation violated =>
    obtain ⟨tokens, listed, token, among, -, place⟩ := located.violating violated cause
    exact atToken listed among place
  | unexpected | unexpectedFor | numberRange =>
    obtain ⟨tokens, listed, token, among, -, place⟩ := located.unexpected _ (by rw [cause]; rfl)
    exact atToken listed among place

/-- The report of a refused source quotes the line of the character at the place of the diagnostic. Its caret stands
under that character just where all characters before it on the line take one byte and the white space that the line
starts with is made of spaces and tabs; elsewhere it stands further right, by what these make it drift. A source that
fits into 32 bits has such a character at the place. -/
theorem report_points_of_checkSource (refused : checkSource options source file = .error diagnostic)
    (inside : diagnostic.position.offset < source.utf8ByteSize) :
    (source.utf8ByteSize < 2 ^ 32 → ∃ before char after, source.toList = before ++ char :: after ∧
      byteCount before = diagnostic.position.offset ∧ isBlank char = false) ∧
    ∀ before char after, source.toList = before ++ char :: after → byteCount before = diagnostic.position.offset →
      isBlank char = false →
        Points (diagnostic.report source file) (1 + before.count '\n') (lineBefore before) char
          (Line.drift (lineBefore before)) ∧
        (Line.drift (lineBefore before) = 0 ↔ (∀ other ∈ lineBefore before, other.utf8Size = 1) ∧
          ∀ blank ∈ (lineBefore before).takeWhile isBlank, isIndent blank) := by
  refine ⟨fun small => seen_of_checkSource small refused inside, ?_⟩
  intro before char after whole placed seen
  exact ⟨diagnostic.report_points whole placed seen file, Line.drift_eq_zero_iff _⟩

end

def indented : String :=
  "declare server S \x7b\n    function void main() \x7b\n        int x = 1 @ 2;\n    \x7d\n\x7d\n"

/-- The caret is under a character after eight spaces of indentation. -/
theorem report_points_of_checkSource_indented :
    checkSource ⟨false⟩ indented "test.smcl" = .error ⟨.unrecognised "@", ⟨64, "test.smcl"⟩⟩ ∧
      64 < indented.utf8ByteSize ∧
      Points (Diagnostic.report indented "test.smcl" ⟨.unrecognised "@", ⟨64, "test.smcl"⟩⟩) 3
        "        int x = 1 ".toList '@' 0 := by
  have refused : checkSource ⟨false⟩ indented "test.smcl" = .error ⟨.unrecognised "@", ⟨64, "test.smcl"⟩⟩ := by
    cbv
  have inside : 64 < indented.utf8ByteSize := by cbv
  have whole : indented.toList =
      "declare server S \x7b\n    function void main() \x7b\n        int x = 1 ".toList ++
        '@' :: " 2;\n    \x7d\n\x7d\n".toList := by
    cbv
  have points := (report_points_of_checkSource refused inside).2 _ _ _ whole (by cbv) (by cbv)
  exact ⟨refused, inside, points.1⟩

def quoting : String :=
  "declare server S \x7b\n    function void main() \x7b\n        display(\"é\" @ 2);\n    \x7d\n\x7d\n"

/-- The caret is under the space after the character, since a character of two bytes comes before it on the line. -/
theorem caret_drifts_after_wide_character :
    checkSource ⟨false⟩ quoting "test.smcl" = .error ⟨.unrecognised "@", ⟨67, "test.smcl"⟩⟩ ∧
      67 < quoting.utf8ByteSize ∧ (dropBytes 67 quoting.toList).bind List.head? = some '@' ∧
      linePieces (Diagnostic.report quoting "test.smcl" ⟨.unrecognised "@", ⟨67, "test.smcl"⟩⟩).toList =
        ["Error: UnrecognisedToken\n".toList, "-> test.smcl\n".toList, "  |\n".toList,
          "3 | display(\"é\" @ 2);\n".toList, "  | -------------^\n".toList] ∧
      "3 | display(\"é\" @ 2);\n".toList["  | -------------^\n".toList.idxOf '^']? = some ' ' := by
  refine ⟨?refused, ?inside, ?character, ?lines, ?above⟩
  all_goals cbv

end Multiparty
