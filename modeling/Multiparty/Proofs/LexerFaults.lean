import Mathlib
import Multiparty.Proofs.LexedBeginnings

/-! Where the lexer fails: after a beginning that it accepts by itself and that leaves no comment open, at a character
that nothing begins with. A text has one such place at most. -/

namespace Multiparty.Token
open Text

/-- The operators and the punctuation of one character. -/
def signs : List Char :=
  ['\x7b', '\x7d', '(', ')', '=', '!', '<', '>', '|', '.', ';', ',', '+', '-', '/', '*', '%']

/-- No token, white space or comment begins with the character where `after` follows it. -/
structure BeginsNothing (char : Char) (after : List Char) : Prop where
  blank : isBlank char = false
  /-- Letters and digits are those of ASCII. -/
  alphanumeric : char.isAlphanum = false
  underscore : char ≠ '_'
  sign : char ∉ signs
  ampersands : char = '&' → after.head? ≠ some '&'
  /-- The quote of a literal that is closed is no fault. -/
  literal : char = '"' → ¬ ∃ inside rest, LiteralInside inside ∧ after = inside ++ '"' :: rest

/-- The lexer has nothing to read at `char`. -/
structure Faulty (file? : Option String) (before : List Char) (char : Char) (after : List Char) : Prop where
  accepted : ∃ tokens, list (.ofList before) file? = .ok tokens
  outside : ¬ EndsInComment file? before
  nothing : BeginsNothing char after

theorem symbol?_eq_none_iff {char : Char} {after : List Char} : Lexeme.symbol? char after = none ↔
    char ∉ signs ∧ (char = '&' → after.head? ≠ some '&') := by
  rw [Lexeme.symbol?, Option.map_eq_none_iff, List.find?_eq_none]
  constructor
  · intro none
    refine ⟨fun sign => ?_, ?_⟩
    · have known : ∀ char ∈ signs, ∃ kind, ([char], kind) ∈ symbols := by simp [signs, symbols]
      obtain ⟨kind, listed⟩ := known char sign
      exact none _ listed (by simp)
    · rintro rfl second
      obtain ⟨rest, rfl⟩ := List.head?_eq_some_iff.mp second
      exact none (['&', '&'], .and) (by decide) (by simp)
  · rintro ⟨noSign, noAnd⟩ ⟨text, kind⟩ listed begins
    have known : ∀ entry ∈ symbols, entry.1 = ['&', '&'] ∨ entry.1.headD ' ' ∈ signs := by decide
    obtain ⟨rest, whole⟩ := List.isPrefixOf_iff_prefix.mp begins
    rcases known _ listed with rfl | sign
    · obtain ⟨rfl, rfl⟩ := List.cons.inj whole
      exact noAnd rfl rfl
    · cases text with
      | nil => exact absurd (show ' ' ∈ signs from sign) (by decide)
      | cons first tail =>
        obtain ⟨rfl, -⟩ := List.cons.inj whole
        exact noSign sign

theorem literalBody?_eq_none_iff {after : List Char} :
    literalBody? after = none ↔ ¬ ∃ inside rest, LiteralInside inside ∧ after = inside ++ '"' :: rest := by
  constructor
  · rintro none ⟨inside, rest, shape, rfl⟩
    rw [literalBody?_of_literalInside shape] at none
    cases none
  · intro unclosed
    rw [Option.eq_none_iff_forall_ne_some]
    intro inside found
    obtain ⟨shape, rest, whole⟩ := literalInside_of_literalBody? found
    exact unclosed ⟨inside, rest, shape, whole⟩

theorem scan?_eq_none_iff {char : Char} {after : List Char} :
    Lexeme.scan? char after = none ↔ BeginsNothing char after := by
  constructor
  · intro none
    unfold Lexeme.scan? at none
    split_ifs at none with start digit blank quote comment
    all_goals
      have alphabetic : char.isAlpha = false ∧ char ≠ '_' := by simpa [isWordStart] using start
      have alphanumeric : char.isAlphanum = false := by simp [Char.isAlphanum, alphabetic, digit]
    · subst quote
      rw [Option.map_eq_none_iff, literalBody?_eq_none_iff] at none
      have noAmpersand : ('"' : Char) ≠ '&' := by decide
      exact ⟨by simpa using blank, alphanumeric, alphabetic.2, by decide, fun same => absurd same noAmpersand,
        fun _ => none⟩
    · obtain ⟨noSign, noAnd⟩ := symbol?_eq_none_iff.mp none
      exact ⟨by simpa using blank, alphanumeric, alphabetic.2, noSign, noAnd, fun same => absurd same quote⟩
  · intro nothing
    obtain ⟨alphabetic, digit⟩ : char.isAlpha = false ∧ char.isDigit = false := by
      simpa [Char.isAlphanum] using nothing.alphanumeric
    have start : isWordStart char = false := by simp [isWordStart, alphabetic, nothing.underscore]
    have noComment : ¬ (char = '/' ∧ after.head? = some '/') := by
      rintro ⟨rfl, -⟩
      exact nothing.sign (by decide)
    rw [Lexeme.scan?, start, digit, nothing.blank, if_neg Bool.false_ne_true, if_neg Bool.false_ne_true,
      if_neg Bool.false_ne_true]
    split_ifs with quote
    · rw [literalBody?_eq_none_iff.mpr (nothing.literal quote), Option.map_none]
    · exact symbol?_eq_none_iff.mpr ⟨nothing.sign, nothing.ampersands⟩

theorem BeginsNothing.severs {char : Char} {after : List Char} (nothing : BeginsNothing char after) :
    Severs char where
  word := by simp [isWordChar, nothing.alphanumeric, nothing.underscore]
  symbol among := nothing.sign (by
    have known : ['=', '|', '/'] ⊆ signs := by decide
    exact known among)

section
variable {file : String} {file? : Option String} {before after : List Char} {char : Char} {tokens : List Token}

theorem ReadBefore.refused (read : ReadBefore file (char :: after) before tokens)
    (fits : byteCount (before ++ char :: after) < UInt32.size) (scanned : Lexeme.scan? char after = none) :
    listFrom file 0 (before ++ char :: after) =
      .error ⟨.unrecognised (.singleton char), ⟨byteCount before, file⟩⟩ := by
  have small : byteCount before < UInt32.size := by
    rw [byteCount_append] at fits
    omega
  rw [read.listFrom_eq fits, listFrom, scanned]
  simp only [ofByte_eq small]
  rfl

/-- A comment that is open before a character takes the character in, unless it is a line break. -/
theorem ReadBefore.outside (read : ReadBefore (file?.getD Scanner.defaultFile) (char :: after) before tokens)
    (fits : byteCount (before ++ char :: after) < UInt32.size) (scanned : Lexeme.scan? char after = none) :
    ¬ EndsInComment file? before := by
  rintro ⟨front, body, rfl, inside, others, listed⟩
  have small : (String.ofList front).utf8ByteSize < 2 ^ 32 := by
    simp only [← byteCount_toList, String.toList_ofList, byteCount_append] at fits ⊢
    exact Nat.lt_of_le_of_lt (by omega) fits
  obtain ⟨others, -, accepted⟩ := readBefore_of_list small listed
  rw [String.toList_ofList] at accepted
  obtain ⟨front', comment, others, same, noBreak, opens⟩ := opens_comment accepted inside
  rw [same] at read fits
  have noLineBreak : char ≠ '\n' := by
    rintro rfl
    rw [scan?_blank rfl] at scanned
    cases scanned
  -- the comment goes on over the character, so that whatever fails does so later
  obtain ⟨run, rest, rfl, noBreaks, ended⟩ : ∃ run rest, after = run ++ rest ∧ '\n' ∉ run ∧
      ∀ next ∈ rest.head?, next = '\n' := by
    refine ⟨after.takeWhile (· ≠ '\n'), after.dropWhile (· ≠ '\n'), List.takeWhile_append_dropWhile.symm, ?_, ?_⟩
    · intro among
      simpa using List.mem_takeWhile_imp among
    · intro next head
      simpa using dropWhile_stops next head
  have further : ReadBefore (file?.getD Scanner.defaultFile) rest
      (front' ++ '/' :: '/' :: (comment ++ char :: run)) others := by
    refine .skip ?_ (.comment (by simp [noBreak, noBreaks, noLineBreak.symm]) ended)
    simpa using opens (char :: (run ++ rest))
  have whole : front' ++ '/' :: '/' :: comment ++ char :: (run ++ rest) =
      front' ++ '/' :: '/' :: (comment ++ char :: run) ++ rest := by simp
  have refused := read.refused fits scanned
  rw [whole] at refused fits
  rw [further.listFrom_eq fits] at refused
  have goesOn := further.goesOn fits
  rw [map_eq_error refused] at goesOn
  obtain ⟨piece, char', after, _, -, -, -, place⟩ := goesOn
  have offsets := congrArg (fun diagnostic => diagnostic.position.offset) place
  have positive := char.utf8Size_pos
  simp only [byteCount_append, byteCount_cons] at offsets
  omega

end

section
variable {source : String} {file? : Option String} {before after : List Char} {char : Char}

theorem faulty_of_list {diagnostic : Diagnostic} (small : source.utf8ByteSize < 2 ^ 32)
    (refused : list source file? = .error diagnostic) :
    ∃ before char after, source.toList = before ++ char :: after ∧ Faulty file? before char after := by
  obtain ⟨before, char, after, tokens, whole, read, scanned, -⟩ := list_eq_error small refused
  have fits : byteCount (before ++ char :: after) < UInt32.size := by
    rw [← whole, byteCount_toList]
    exact small
  exact ⟨before, char, after, whole, read.accepted fits, read.outside fits scanned, scan?_eq_none_iff.mp scanned⟩

theorem Faulty.list_eq (faulty : Faulty file? before char after) (whole : source.toList = before ++ char :: after)
    (small : source.utf8ByteSize < 2 ^ 32) : list source file? =
      .error ⟨.unrecognised (.singleton char), ⟨byteCount before, file?.getD Scanner.defaultFile⟩⟩ := by
  rw [← byteCount_toList, whole] at small
  obtain ⟨tokens, listed⟩ := faulty.accepted
  have shorter : (String.ofList before).utf8ByteSize < 2 ^ 32 := by
    rw [← byteCount_toList, String.toList_ofList]
    rw [byteCount_append] at small
    omega
  obtain ⟨body, -, read⟩ := readBefore_of_list shorter listed
  rw [String.toList_ofList] at read
  have reached : ReadBefore (file?.getD Scanner.defaultFile) (char :: after) before body := by
    refine read.onto (fun next head => ?_) fun front comment others same inside opens next head => ?_
    · cases head
      exact faulty.nothing.severs
    · have shorter : byteCount (front ++ '/' :: '/' :: comment) < UInt32.size := by
        rw [← same]
        rw [byteCount_append] at small
        exact Nat.lt_of_le_of_lt (Nat.le_add_right _ _) small
      exact absurd ⟨front, comment, same, inside, opens.accepted shorter⟩ faulty.outside
  rw [list, whole]
  exact reached.refused small (scan?_eq_none_iff.mpr faulty.nothing)

/-- The lexer fails exactly where a faulty character follows what it accepts, of which there is one at most, and names
that character. -/
theorem list_fails_iff (small : source.utf8ByteSize < 2 ^ 32) :
    ((∃ diagnostic, list source file? = .error diagnostic) ↔
      ∃ before char after, source.toList = before ++ char :: after ∧ Faulty file? before char after) ∧
    ((∃ tokens, list source file? = .ok tokens) ↔
      ¬ ∃ before char after, source.toList = before ++ char :: after ∧ Faulty file? before char after) ∧
    ∀ before char after, source.toList = before ++ char :: after → Faulty file? before char after →
      list source file? =
        .error ⟨.unrecognised (.singleton char), ⟨byteCount before, file?.getD Scanner.defaultFile⟩⟩ ∧
      ∀ other char' rest, source.toList = other ++ char' :: rest → Faulty file? other char' rest →
        other = before := by
  have fails (before : List Char) (char : Char) (after : List Char)
      (whole : source.toList = before ++ char :: after) (faulty : Faulty file? before char after) :=
    faulty.list_eq whole small
  have refused : (∃ diagnostic, list source file? = .error diagnostic) ↔
      ∃ before char after, source.toList = before ++ char :: after ∧ Faulty file? before char after := by
    constructor
    · rintro ⟨diagnostic, refused⟩
      exact faulty_of_list small refused
    · rintro ⟨before, char, after, whole, faulty⟩
      exact ⟨_, fails before char after whole faulty⟩
  refine ⟨refused, ?accepted, ?unique⟩
  case accepted =>
    rw [← refused]
    cases list source file? <;> simp
  case unique =>
    intro before char after whole faulty
    refine ⟨fails before char after whole faulty, fun other char' rest same elsewhere => ?_⟩
    have places := (fails other char' rest same elsewhere).symm.trans (fails before char after whole faulty)
    have offsets : byteCount other = byteCount before := by
      injection places with diagnostics
      exact congrArg (fun diagnostic => diagnostic.position.offset) diagnostics
    exact (append_inj_of_byteCount (same.symm.trans whole) offsets).1

end

/-- A literal with an escaped quote, then a comment that holds a quote; the fault is a single ampersand after them. -/
theorem list_fails_ampersand :
    let source := "\"a\\\"\" // \"é\n & \""
    source.utf8ByteSize < 2 ^ 32 ∧
      list source none = .error ⟨.unrecognised "&", ⟨14, "shell"⟩⟩ ∧
      ∃ before char after, source.toList = before ++ char :: after ∧ Faulty none before char after ∧
        ∀ other char' rest, source.toList = other ++ char' :: rest → Faulty none other char' rest → other = before := by
  intro source
  have small : source.utf8ByteSize < 2 ^ 32 := by decide
  have refused : list source none = .error ⟨.unrecognised "&", ⟨14, "shell"⟩⟩ := by cbv
  obtain ⟨before, char, after, whole, faulty⟩ := (list_fails_iff small).1.mp ⟨_, refused⟩
  exact ⟨small, refused, before, char, after, whole, faulty,
    ((list_fails_iff small).2.2 before char after whole faulty).2⟩

end Multiparty.Token
