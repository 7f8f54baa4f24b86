import Mathlib
import Multiparty.Proofs.Lexing

/-! The tokens of a text tile it. Each token covers a piece of the text that spells it and that goes on as far as it
can; what lies between two tokens, before the first and after the last, is white space and comments. -/

namespace Multiparty

namespace Text

theorem byteCount_eq_zero {chars : List Char} (empty : byteCount chars = 0) : chars = [] := by
  cases chars with
  | nil => rfl
  | cons char rest =>
    have positive := char.utf8Size_pos
    rw [byteCount_cons] at empty
    omega

theorem byteCount_toList (text : String) : byteCount text.toList = text.utf8ByteSize := by
  rw [← String.utf8Len_toList]
  induction text.toList with
  | nil => rfl
  | cons char rest ih => rw [byteCount_cons, String.utf8Len_cons, ih, Nat.add_comm]

/-- A text has one beginning of each size. -/
theorem append_inj_of_byteCount {first second left right : List Char}
    (same : first ++ second = left ++ right) (sized : byteCount first = byteCount left) :
    first = left ∧ second = right := by
  induction first generalizing left with
  | nil =>
    obtain rfl := byteCount_eq_zero sized.symm
    exact ⟨rfl, same⟩
  | cons char first ih =>
    cases left with
    | nil => exact absurd (byteCount_eq_zero sized) nofun
    | cons other left =>
      obtain ⟨rfl, others⟩ := List.cons.inj same
      obtain ⟨rfl, rfl⟩ := ih others (Nat.add_left_cancel sized)
      exact ⟨rfl, rfl⟩

/-- What stands between the quotes of a literal: characters that are neither quotes nor backslashes, and backslashes
each with a character that is no line break. -/
inductive LiteralInside : List Char → Prop
  | nil : LiteralInside []
  | plain {char : Char} {rest : List Char} : char ≠ '"' → char ≠ '\\' → LiteralInside rest →
    LiteralInside (char :: rest)
  | escaped {char : Char} {rest : List Char} : char ≠ '\n' → LiteralInside rest →
    LiteralInside ('\\' :: char :: rest)

theorem literalInside_of_literalBody? {chars body : List Char} (found : literalBody? chars = some body) :
    LiteralInside body ∧ ∃ rest, chars = body ++ '"' :: rest := by
  fun_induction literalBody? chars generalizing body with
  | case1 => cases found
  | case2 rest =>
    cases found
    exact ⟨.nil, rest, rfl⟩
  | case3 => cases found
  | case4 char rest noBreak ih =>
    obtain ⟨inside, more, rfl⟩ := Option.map_eq_some_iff.mp found
    obtain ⟨shape, after, rfl⟩ := ih more
    exact ⟨.escaped noBreak shape, after, rfl⟩
  | case5 => cases found
  | case6 char rest noQuote _ noBackslash ih =>
    obtain ⟨inside, more, rfl⟩ := Option.map_eq_some_iff.mp found
    obtain ⟨shape, after, rfl⟩ := ih more
    exact ⟨.plain noQuote noBackslash shape, after, rfl⟩

/-- White space, or a comment up to the end of its line. -/
inductive SkippedPiece (after : List Char) : List Char → Prop
  | blanks {run : List Char} : run ≠ [] → (∀ char ∈ run, isBlank char) → SkippedPiece after run
  | comment {body : List Char} : '\n' ∉ body → (∀ next ∈ after.head?, next = '\n') →
    SkippedPiece after ('/' :: '/' :: body)

/-- What stands between tokens, where `after` is the rest of the text. -/
inductive Skipped (after : List Char) : List Char → Prop
  | nil : Skipped after []
  | cons {piece rest : List Char} : SkippedPiece (rest ++ after) piece → Skipped after rest →
    Skipped after (piece ++ rest)

end Text

namespace Token
open Text

/-- The character that, after a symbol, would make a longer symbol or a comment of it. -/
def Kind.continuation? : Kind → Option Char
  | .assignment => some '='
  | .pipe => some '|'
  | .slash => some '/'
  | _ => none

/-- How a token of that kind and value is written where `after` is the rest of the text. -/
inductive Spells (after : List Char) : Kind → List Char → List Char → Prop
  | name {text : List Char} : isWord (.ofList text) → Ends after →
    (∀ kind, (String.ofList text, kind) ∉ reservedWords) → Spells after .identifier text text
  | reserved {kind : Kind} {text : List Char} : isWord (.ofList text) → Ends after →
    (String.ofList text, kind) ∈ reservedWords → Spells after kind text text
  | number {text : List Char} : IsNumber (.ofList text) → (∀ next ∈ after.head?, next.isDigit = false) →
    Spells after .number text text
  | literal {inside : List Char} : LiteralInside inside →
    Spells after .string (unescape inside) ('"' :: (inside ++ ['"']))
  | symbol {kind : Kind} {text : List Char} : (text, kind) ∈ symbols →
    (∀ next ∈ after.head?, kind.continuation? ≠ some next) → Spells after kind text text

theorem Spells.ne_nil {after value text : List Char} {kind : Kind} (spells : Spells after kind value text) :
    text ≠ [] := by
  cases spells with
  | name word | reserved word =>
    rintro rfl
    cases word
  | number digits =>
    rintro rfl
    exact digits.1 rfl
  | literal => exact List.cons_ne_nil _ _
  | symbol listed =>
    rintro rfl
    have spelled : ∀ entry ∈ symbols, entry.1 ≠ [] := by decide
    exact spelled _ listed rfl

theorem dropWhile_stops {among : Char → Bool} {rest : List Char} :
    ∀ next ∈ (rest.dropWhile among).head?, among next = false := by
  intro next head
  have stopped := List.head?_dropWhile_not among rest
  rw [Option.mem_def.mp head] at stopped
  simpa using stopped

theorem isWord_takeWhile {first : Char} (start : isWordStart first) (rest : List Char) :
    isWord (.ofList (first :: rest.takeWhile isWordChar)) := by
  simp only [isWord, String.toList_ofList, start, List.all_takeWhile, Bool.and_self]

/-- A word is reserved or free as a whole. -/
theorem spells_word {first : Char} (start : isWordStart first) (rest : List Char) :
    let text := first :: rest.takeWhile isWordChar
    Spells (rest.dropWhile isWordChar) (wordKind (.ofList text)) text text := by
  intro text
  have word := isWord_takeWhile start rest
  rw [wordKind]
  cases found : reservedWords.lookup (String.ofList text) with
  | none =>
    refine .name word dropWhile_stops fun kind listed => ?_
    rw [List.lookup_eq_none_iff] at found
    simpa using found _ listed
  | some kind =>
    obtain ⟨before, after, words, -⟩ := List.lookup_eq_some_iff.mp found
    exact .reserved word dropWhile_stops (by simp [words])

/-- The first symbol that fits is one that does not go on, unless a comment begins there. -/
theorem spells_symbol {first : Char} {rest : List Char} {lexeme : Lexeme}
    (noComment : ¬ (first = '/' ∧ rest.head? = some '/'))
    (scanned : Lexeme.symbol? first rest = some lexeme) :
    ∃ kind text after, lexeme = .token kind text text.tail ∧ first :: rest = text ++ after ∧
      Spells after kind text text := by
  obtain ⟨⟨text, kind⟩, found, rfl⟩ := Option.map_eq_some_iff.mp scanned
  have listed := List.mem_of_find?_eq_some found
  have begins : text.isPrefixOf (first :: rest) := @List.find?_some _ _ (text, kind) _ found
  obtain ⟨after, whole⟩ := List.isPrefixOf_iff_prefix.mp begins
  refine ⟨kind, text, after, rfl, whole.symm, .symbol listed fun next head continues => ?_⟩
  have longer : ∀ entry ∈ symbols, entry.2.continuation? = none ∨
      entry ∈ [(['='], Kind.assignment), (['|'], .pipe), (['/'], .slash)] := by
    decide
  obtain ⟨more, rfl⟩ : ∃ more, after = next :: more := by
    cases after with
    | nil => cases head
    | cons other more => exact ⟨more, by rw [Option.some.inj head]⟩
  rcases longer _ listed with final | among
  · rw [final] at continues
    cases continues
  · simp only [List.mem_cons, Prod.mk.injEq, List.not_mem_nil, or_false] at among
    rcases among with ⟨rfl, rfl⟩ | ⟨rfl, rfl⟩ | ⟨rfl, rfl⟩
    · cases continues
      obtain ⟨rfl, rfl⟩ := List.cons.inj whole
      cases found
    · cases continues
      obtain ⟨rfl, rfl⟩ := List.cons.inj whole
      cases found
    · cases continues
      obtain ⟨rfl, rfl⟩ := List.cons.inj whole
      exact noComment ⟨rfl, rfl⟩

/-- What a step of the lexer takes from the text is spelled or skipped there. -/
def Lexeme.Reads (first : Char) (after : List Char) : Lexeme → Prop
  | .skipped tail => SkippedPiece after (first :: tail)
  | .token kind value tail => Spells after kind value (first :: tail)

theorem scan?_reads {first : Char} {rest : List Char} {lexeme : Lexeme}
    (scanned : Lexeme.scan? first rest = some lexeme) :
    ∃ after, rest = lexeme.tail ++ after ∧ lexeme.Reads first after := by
  unfold Lexeme.scan? at scanned
  split_ifs at scanned with start digit blank quote comment
  · cases scanned
    exact ⟨_, List.takeWhile_append_dropWhile.symm, spells_word start rest⟩
  · cases scanned
    refine ⟨_, List.takeWhile_append_dropWhile.symm, .number ?_ dropWhile_stops⟩
    rw [IsNumber, String.toList_ofList, List.forall_mem_cons]
    exact ⟨List.cons_ne_nil _ _, digit, fun char among => List.mem_takeWhile_imp among⟩
  · cases scanned
    refine ⟨_, List.takeWhile_append_dropWhile.symm, .blanks (List.cons_ne_nil _ _) ?_⟩
    rw [List.forall_mem_cons]
    exact ⟨blank, fun char among => List.mem_takeWhile_imp among⟩
  · obtain ⟨inside, found, rfl⟩ := Option.map_eq_some_iff.mp scanned
    obtain ⟨shape, after, rfl⟩ := literalInside_of_literalBody? found
    subst quote
    exact ⟨after, List.append_cons _ _ _, .literal shape⟩
  · cases scanned
    obtain ⟨rfl, slash⟩ := comment
    obtain ⟨body, rfl⟩ : ∃ body, rest = '/' :: body := List.head?_eq_some_iff.mp slash
    refine ⟨_, (List.takeWhile_append_dropWhile (p := (· ≠ '\n'))).symm, ?_⟩
    rw [Lexeme.Reads, List.takeWhile_cons_of_pos (by decide), List.dropWhile_cons_of_pos (by decide)]
    refine .comment (fun inside => ?_) fun next head => ?_
    · simpa using List.mem_takeWhile_imp inside
    · simpa using dropWhile_stops next head
  · obtain ⟨kind, text, after, rfl, whole, spells⟩ := spells_symbol comment scanned
    cases text with
    | nil => exact absurd rfl spells.ne_nil
    | cons _ tail =>
      obtain ⟨rfl, rfl⟩ := List.cons.inj whole
      exact ⟨after, rfl, spells⟩

end Token

/-- `piece` is the text within the span, and `after` is the rest of the source. -/
def Span.Covers (file : String) (source : List Char) (span : Span) (piece after : List Char) : Prop :=
  ∃ before, source = before ++ (piece ++ after) ∧
    span = ⟨⟨Text.byteCount before, file⟩, ⟨Text.byteCount (before ++ piece), file⟩⟩

/-- From the end of the first span to the start of the second. -/
def Span.between (first second : Span) : Span :=
  ⟨first.stop, second.start⟩

namespace Token
open Text

/-- The tokens tile the source from `start` on. -/
structure Tiling (file : String) (source : List Char) (start : Position) (tokens : List Token) : Prop where
  ended : ∃ body, tokens = body ++ [endOfInput ⟨byteCount source, file⟩] ∧
    ∀ token ∈ body, token.kind ≠ .endOfInput
  spelled : ∀ token ∈ tokens, token.kind ≠ .endOfInput →
    token.span.start.offset < token.span.stop.offset ∧ ∃ text after,
      token.span.Covers file source text after ∧ Spells after token.kind token.value.toList text
  skipped : (⟨start, start⟩ :: tokens.map Token.span).IsChain fun first second => ∃ gap after,
    (first.between second).Covers file source gap after ∧ Skipped after gap
  ordered : (⟨start, start⟩ :: tokens.map Token.span).Pairwise fun first second =>
    first.stop.offset ≤ second.start.offset

section
variable {file : String} {before piece rest : List Char} {tokens : List Token}

theorem tiling_nil (file : String) (source : List Char) :
    Tiling file source ⟨byteCount source, file⟩ [endOfInput ⟨byteCount source, file⟩] where
  ended := ⟨[], rfl, nofun⟩
  spelled := by
    intro token among inside
    rw [List.mem_singleton.mp among] at inside
    exact absurd rfl inside
  skipped := by
    refine .cons_cons ⟨[], [], ⟨source, ?_, ?_⟩, .nil⟩ (.singleton _)
    · rw [List.append_nil, List.append_nil]
    · rw [List.append_nil]
      rfl
  ordered := by
    refine List.pairwise_pair.mpr ?_
    exact Nat.le_refl _

theorem Tiling.exists_cons {source : List Char} {start : Position} (tiling : Tiling file source start tokens) :
    ∃ first others, tokens = first :: others := by
  obtain ⟨body, rfl, -⟩ := tiling.ended
  exact List.exists_cons_of_ne_nil (List.append_ne_nil_of_right_ne_nil _ (List.cons_ne_nil _ _))

/-- A piece that is skipped joins what is skipped after it. -/
theorem Tiling.skip (tiling : Tiling file (before ++ (piece ++ rest)) ⟨byteCount (before ++ piece), file⟩ tokens)
    (skips : SkippedPiece rest piece) :
    Tiling file (before ++ (piece ++ rest)) ⟨byteCount before, file⟩ tokens := by
  obtain ⟨first, others, rfl⟩ := tiling.exists_cons
  obtain ⟨ended, spelled, skipped, ordered⟩ := tiling
  refine ⟨ended, spelled, ?_, ?_⟩
  · cases skipped with
    | cons_cons gapped chain =>
      obtain ⟨gap, after, ⟨front, whole, places⟩, skipped⟩ := gapped
      refine .cons_cons ⟨piece ++ gap, after, ⟨before, ?_, ?_⟩, ?_⟩ chain
      all_goals
        obtain ⟨start, stop⟩ := Span.mk.inj places
        rw [← List.append_assoc] at whole
        obtain ⟨rfl, rfl⟩ := append_inj_of_byteCount whole (Position.mk.inj start).1
      · simp only [List.append_assoc]
      · rw [Span.between, stop, List.append_assoc]
      · exact .cons skips skipped
  · rw [List.map_cons, List.pairwise_cons] at ordered ⊢
    refine ⟨fun second among => ?_, ordered.2⟩
    have further := ordered.1 second among
    simp only [byteCount_append] at further ⊢
    omega

theorem Tiling.token {kind : Kind} {value : List Char}
    (tiling : Tiling file (before ++ (piece ++ rest)) ⟨byteCount (before ++ piece), file⟩ tokens)
    (spells : Spells rest kind value piece) (inside : kind ≠ .endOfInput) :
    Tiling file (before ++ (piece ++ rest)) ⟨byteCount before, file⟩
      (⟨kind, .ofList value, ⟨⟨byteCount before, file⟩, ⟨byteCount (before ++ piece), file⟩⟩⟩ :: tokens) := by
  obtain ⟨first, others, rfl⟩ := tiling.exists_cons
  obtain ⟨⟨body, whole, further⟩, spelled, skipped, ordered⟩ := tiling
  refine ⟨⟨_ :: body, congrArg _ whole, List.forall_mem_cons.mpr ⟨inside, further⟩⟩, ?_, ?_, ?_⟩
  · rw [List.forall_mem_cons]
    refine ⟨fun _ => ⟨?_, piece, rest, ⟨before, rfl, rfl⟩, ?_⟩, spelled⟩
    · have size : byteCount piece ≠ 0 := fun empty => spells.ne_nil (byteCount_eq_zero empty)
      simp only [byteCount_append]
      omega
    · rwa [String.toList_ofList]
  · refine .cons_cons ⟨[], piece ++ rest, ⟨before, rfl, ?_⟩, .nil⟩ ?_
    · rw [List.append_nil]
      rfl
    · cases skipped with
      | cons_cons gapped chain => exact .cons_cons gapped chain
  · rw [List.pairwise_cons] at ordered
    have after : ∀ span ∈ (first :: others).map Token.span,
        byteCount (before ++ piece) ≤ span.start.offset := ordered.1
    refine .cons ?_ (.cons after ordered.2)
    rw [List.map_cons, List.forall_mem_cons]
    refine ⟨Nat.le_refl _, fun span among => Nat.le_trans ?_ (after span among)⟩
    rw [byteCount_append]
    exact Nat.le_add_right _ _

end

theorem ofByte_eq {byte : Nat} (fits : byte < UInt32.size) (file : String) :
    Position.ofByte byte file = ⟨byte, file⟩ := by
  rw [Position.ofByte, Nat.mod_eq_of_lt fits]

theorem ofBytes_eq {before piece after : List Char}
    (fits : byteCount (before ++ (piece ++ after)) < UInt32.size) (file : String) :
    Span.ofBytes (byteCount before) (byteCount piece) file =
      ⟨⟨byteCount before, file⟩, ⟨byteCount (before ++ piece), file⟩⟩ := by
  simp only [byteCount_append] at fits ⊢
  rw [Span.ofBytes, ofByte_eq (by omega), ofByte_eq (by omega)]

/-- A proof about lexing may follow the pieces of the text: what is skipped, tokens, the end, and a character that
nothing begins with. -/
theorem listFrom_by_pieces {file : String}
    {motive : List Char → List Char → Except Diagnostic (List Token) → Prop}
    (ended : ∀ before, motive before [] (.ok [endOfInput ⟨byteCount before, file⟩]))
    (refused : ∀ before first rest, Lexeme.scan? first rest = none →
      motive before (first :: rest) (.error ⟨.unrecognised (.singleton first), ⟨byteCount before, file⟩⟩))
    (skip : ∀ before piece rest result, SkippedPiece rest piece → motive (before ++ piece) rest result →
      motive before (piece ++ rest) result)
    (token : ∀ before piece rest kind value result, Spells rest kind value piece → kind ≠ .endOfInput →
      motive (before ++ piece) rest result →
      motive before (piece ++ rest) (result.map fun tokens =>
        ⟨kind, .ofList value, ⟨⟨byteCount before, file⟩, ⟨byteCount (before ++ piece), file⟩⟩⟩ :: tokens))
    {byte : Nat} {before chars : List Char} (reached : byte = byteCount before)
    (fits : byteCount (before ++ chars) < UInt32.size) : motive before chars (listFrom file byte chars) := by
  fun_induction listFrom file byte chars generalizing before with
  | case1 byte =>
    subst reached
    rw [List.append_nil] at fits
    rw [ofByte_eq fits]
    exact ended before
  | case2 byte first rest scanned =>
    subst reached
    rw [byteCount_append] at fits
    rw [ofByte_eq (by omega)]
    exact refused before first rest scanned
  | case3 byte first rest tail scanned length =>
    rename_i following ih
    obtain ⟨after, rfl, skips⟩ := scan?_reads scanned
    simp only [following, Lexeme.tail, List.drop_left] at ih ⊢
    refine skip before (first :: tail) after _ skips (ih (by rw [byteCount_append, reached]; rfl) ?_)
    rwa [List.append_assoc]
  | case4 byte first rest kind value tail scanned length =>
    rename_i following ih
    obtain ⟨after, rfl, spells⟩ := scan?_reads scanned
    simp only [following, Lexeme.tail, List.drop_left] at ih ⊢
    have inside := (scan?_lexical scanned .nowhere).1
    have whole := token before (first :: tail) after kind value _ spells inside
      (ih (by rw [byteCount_append, reached]; rfl) (by rwa [List.append_assoc]))
    rw [← ofBytes_eq fits file, ← reached] at whole
    exact whole

/-- The lexer tiles what follows any beginning of a source. -/
theorem listFrom_tiling {file : String} {before chars : List Char} {tokens : List Token}
    (fits : byteCount (before ++ chars) < UInt32.size)
    (ran : listFrom file (byteCount before) chars = .ok tokens) :
    Tiling file (before ++ chars) ⟨byteCount before, file⟩ tokens := by
  refine @listFrom_by_pieces file (fun before chars result => ∀ tokens, result = .ok tokens →
    Tiling file (before ++ chars) ⟨byteCount before, file⟩ tokens) ?ended ?refused ?skip ?token _ _ _ rfl fits _ ran
  case ended =>
    rintro before _ ⟨⟩
    rw [List.append_nil]
    exact tiling_nil file before
  case refused => nofun
  case skip =>
    intro before piece rest result skips tiles tokens ran
    have tiling := tiles tokens ran
    rw [List.append_assoc] at tiling
    exact tiling.skip skips
  case token =>
    intro before piece rest kind value result spells inside tiles tokens ran
    obtain ⟨others, ranOthers, rfl⟩ := map_eq_ok ran
    have tiling := tiles others ranOthers
    rw [List.append_assoc] at tiling
    exact tiling.token spells inside

/-- The tokens of a source that fits into 32 bits tile it. -/
theorem tiling_of_list {source : String} {file? : Option String} {tokens : List Token}
    (small : source.utf8ByteSize < 2 ^ 32) (listed : list source file? = .ok tokens) :
    Tiling (file?.getD Scanner.defaultFile) source.toList
      ⟨0, file?.getD Scanner.defaultFile⟩ tokens := by
  rw [← byteCount_toList] at small
  exact @listFrom_tiling _ [] _ _ small listed

/-- A literal with an escaped quote, a comment in it and a character of two bytes, then symbols that are not one symbol,
and a comment that the text ends with. -/
theorem tiling_of_list_literal :
    let source := "whiles=\"\\\"//é\"===| |/ //"
    source.utf8ByteSize < 2 ^ 32 ∧ ∃ tokens, list source none = .ok tokens ∧
      (tokens.map fun token => (token.kind, token.value, token.span.start.offset, token.span.stop.offset)) =
        [(.identifier, "whiles", 0, 6), (.assignment, "=", 6, 7), (.string, "\"//é", 7, 15), (.equals, "==", 15, 17),
          (.assignment, "=", 17, 18), (.pipe, "|", 18, 19), (.pipe, "|", 20, 21), (.slash, "/", 21, 22),
          (.endOfInput, "EOF", 25, 25)] ∧
      Tiling "shell" source.toList ⟨0, "shell"⟩ tokens := by
  intro source
  have small : source.utf8ByteSize < 2 ^ 32 := by decide
  obtain ⟨tokens, listed, seen⟩ := map_eq_ok (show (list source none).map (List.map fun token =>
      (token.kind, token.value, token.span.start.offset, token.span.stop.offset)) = .ok
        [(.identifier, "whiles", 0, 6), (.assignment, "=", 6, 7), (.string, "\"//é", 7, 15), (.equals, "==", 15, 17),
          (.assignment, "=", 17, 18), (.pipe, "|", 18, 19), (.pipe, "|", 20, 21), (.slash, "/", 21, 22),
          (.endOfInput, "EOF", 25, 25)] by cbv)
  exact ⟨small, tokens, listed, seen, tiling_of_list small listed⟩

end Token
end Multiparty
