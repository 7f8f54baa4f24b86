import Mathlib.Data.List.TakeWhile
import Multiparty.Token.Lexer
import Multiparty.Proofs.Consumption

/-! What the lexer makes of a text, as terminals of the grammar. Words and numbers are read whole wherever the next
character cannot belong to them, and most symbols wherever they stand. -/

namespace Multiparty
open Grammar

namespace Token

/-- A letter or an underscore, then letters, digits and underscores. -/
def isWord (text : String) : Bool :=
  match text.toList with
  | [] => false
  | first :: tail => isWordStart first && tail.all isWordChar

/-- A word that is not reserved. -/
structure IsName (text : String) : Prop where
  word : isWord text
  free : wordKind text = .identifier

def IsNumber (text : String) : Prop :=
  text.toList ≠ [] ∧ ∀ char ∈ text.toList, char.isDigit

theorem wordKind_cases (word : String) :
    wordKind word = .identifier ∨ (wordKind word).isMark ∧ wordKind word ≠ .endOfInput := by
  unfold wordKind
  cases found : reservedWords.lookup word with
  | none => exact .inl rfl
  | some kind =>
    right
    obtain ⟨before, after, words, -⟩ := List.lookup_eq_some_iff.mp found
    have reserved : (word, kind) ∈ reservedWords := by simp [words]
    have marks : ∀ entry ∈ reservedWords, entry.2.isMark ∧ entry.2 ≠ .endOfInput := by decide
    exact marks _ reserved

theorem wordKind_of_mem {word : String} {kind : Kind} (reserved : (word, kind) ∈ reservedWords) :
    isWord word ∧ wordKind word = kind ∧ kind.isMark := by
  have known : ∀ entry ∈ reservedWords,
      isWord entry.1 ∧ wordKind entry.1 = entry.2 ∧ entry.2.isMark := by
    decide
  exact known _ reserved

end Token

/-- Terminals that a text can consist of. -/
def Grammar.Terminal.Lexical : Terminal → Prop
  | .name text => Token.IsName text
  | .number digits => Token.IsNumber digits
  | .mark _ | .string _ => True

namespace Token

theorem lexical_of_isMark {kind : Kind} {value : String} {span : Span} (plain : kind.isMark) :
    (Terminal.of ⟨kind, value, span⟩).Lexical := by
  rw [Terminal.of_eq_mark rfl plain]
  trivial

theorem symbol?_lexical {first : Char} {rest value tail : List Char} {kind : Kind}
    (scanned : Lexeme.symbol? first rest = some (.token kind value tail)) :
    kind.isMark ∧ kind ≠ .endOfInput := by
  obtain ⟨⟨symbol, found⟩, listed, same⟩ := Option.map_eq_some_iff.mp scanned
  cases same
  have marks : ∀ entry ∈ symbols, entry.2.isMark ∧ entry.2 ≠ .endOfInput := by decide
  exact marks _ (List.mem_of_find?_eq_some listed)

theorem scan?_lexical {first : Char} {rest value tail : List Char} {kind : Kind}
    (scanned : Lexeme.scan? first rest = some (.token kind value tail)) (span : Span) :
    kind ≠ .endOfInput ∧ (Terminal.of ⟨kind, String.ofList value, span⟩).Lexical := by
  unfold Lexeme.scan? at scanned
  split at scanned
  next start =>
    cases scanned
    rcases wordKind_cases (String.ofList (first :: rest.takeWhile isWordChar)) with free | ⟨mark, inside⟩
    · rw [Terminal.of_eq_name free]
      refine ⟨by simp only [free, ne_eq, reduceCtorEq, not_false_eq_true], ?_, free⟩
      simp only [isWord, String.toList_ofList, start, List.all_takeWhile, Bool.and_self]
    · exact ⟨inside, lexical_of_isMark mark⟩
  next =>
    split at scanned
    next digit =>
      cases scanned
      simp only [Terminal.of, Terminal.Lexical, IsNumber, String.toList_ofList]
      refine ⟨by simp, List.cons_ne_nil _ _, ?_⟩
      rw [List.forall_mem_cons]
      exact ⟨digit, fun char among => List.mem_takeWhile_imp among⟩
    next =>
      split at scanned
      next => cases scanned
      next =>
        split at scanned
        next =>
          obtain ⟨body, -, same⟩ := Option.map_eq_some_iff.mp scanned
          cases same
          exact ⟨by simp, trivial⟩
        next =>
          split at scanned
          next => cases scanned
          next =>
            obtain ⟨mark, inside⟩ := symbol?_lexical scanned
            exact ⟨inside, lexical_of_isMark mark⟩

theorem map_eq_ok {ε α β : Type} {step : α → β} {result : Except ε α} {value : β}
    (ran : result.map step = .ok value) : ∃ found, result = .ok found ∧ step found = value := by
  cases result with
  | error => cases ran
  | ok found => exact ⟨found, rfl, Except.ok.inj ran⟩

theorem map_eq_error {ε α β : Type} {step : α → β} {result : Except ε α} {failure : ε}
    (refused : result.map step = .error failure) : result = .error failure := by
  cases result with
  | error => cases refused; rfl
  | ok => cases refused

/-- The terminals of a stream with one end-of-input token, at its end. -/
def Streams (tokens : List Token) (text : List Terminal) : Prop :=
  ∃ body last, tokens = body ++ [last] ∧ last.kind = .endOfInput ∧
    (∀ token ∈ body, token.kind ≠ .endOfInput) ∧ body.map Terminal.of = text

theorem Streams.cons {tokens : List Token} {text : List Terminal} {token : Token}
    (streams : Streams tokens text) (inside : token.kind ≠ .endOfInput) :
    Streams (token :: tokens) (Terminal.of token :: text) := by
  obtain ⟨body, last, rfl, ended, others, rfl⟩ := streams
  refine ⟨token :: body, last, rfl, ended, ?_, rfl⟩
  rw [List.forall_mem_cons]
  exact ⟨inside, others⟩

theorem streams_endOfInput (place : Position) : Streams [endOfInput place] [] :=
  ⟨[], endOfInput place, rfl, rfl, nofun, rfl⟩

/-- Tokens that were read form a stream of lexical terminals. -/
theorem listFrom_lexical {file : String} {byte : Nat} {chars : List Char} {tokens : List Token}
    (ran : listFrom file byte chars = .ok tokens) :
    ∃ text, Streams tokens text ∧ ∀ terminal ∈ text, terminal.Lexical := by
  fun_induction listFrom file byte chars generalizing tokens with
  | case1 byte =>
    cases ran
    exact ⟨[], streams_endOfInput _, nofun⟩
  | case2 => cases ran
  | case3 =>
    rename_i ih
    exact ih ran
  | case4 byte first rest kind value tail scanned length following =>
    rename_i ih
    obtain ⟨others, ranOthers, rfl⟩ := map_eq_ok ran
    obtain ⟨text, streams, lexical⟩ := ih ranOthers
    obtain ⟨inside, shape⟩ := scan?_lexical scanned (.ofBytes byte length file)
    refine ⟨_, streams.cons inside, ?_⟩
    rw [List.forall_mem_cons]
    exact ⟨shape, lexical⟩

/-- How a text is read, wherever it stands. -/
inductive Lexes : List Char → List Terminal → Prop
  | nil : Lexes [] []
  | skipped {first tail rest text} : Lexeme.scan? first (tail ++ rest) = some (.skipped tail) →
    Lexes rest text → Lexes (first :: (tail ++ rest)) text
  | token {first tail rest kind value text} :
    Lexeme.scan? first (tail ++ rest) = some (.token kind value tail) → Lexes rest text →
    Lexes (first :: (tail ++ rest)) (Terminal.of ⟨kind, String.ofList value, .nowhere⟩ :: text)

theorem Lexes.listFrom {chars : List Char} {text : List Terminal} (lexes : Lexes chars text)
    (file : String) (byte : Nat) :
    ∃ tokens, listFrom file byte chars = .ok tokens ∧ Streams tokens text := by
  induction lexes generalizing byte with
  | nil => exact ⟨_, by rw [Token.listFrom], streams_endOfInput _⟩
  | @skipped first tail rest text scanned _ ih =>
    obtain ⟨tokens, ran, streams⟩ := ih (byte + Text.byteCount (first :: tail))
    refine ⟨tokens, ?_, streams⟩
    rw [Token.listFrom, scanned]
    simp only [Lexeme.tail, List.drop_left, ran]
  | @token first tail rest kind value text scanned _ ih =>
    obtain ⟨tokens, ran, streams⟩ := ih (byte + Text.byteCount (first :: tail))
    have inside := (scan?_lexical scanned .nowhere).1
    have whole := @Streams.cons _ _
      ⟨kind, String.ofList value, .ofBytes byte (Text.byteCount (first :: tail)) file⟩ streams inside
    refine ⟨_, ?_, whole⟩
    rw [Token.listFrom, scanned]
    simp only [Lexeme.tail, List.drop_left, ran]
    rfl

/-- No word or number goes on into `rest`. -/
def Ends (rest : List Char) : Prop :=
  ∀ next ∈ rest.head?, isWordChar next = false

theorem ends_cons {next : Char} (rest : List Char) (ends : isWordChar next = false) :
    Ends (next :: rest) := by
  simpa [Ends] using ends

theorem takeWhile_append_of_stops {among : Char → Bool} {run after : List Char} (all : ∀ char ∈ run, among char)
    (stops : ∀ next ∈ after.head?, among next = false) : (run ++ after).takeWhile among = run := by
  rw [List.takeWhile_append_of_pos all]
  cases after with
  | nil => simp
  | cons next rest => simp [stops next rfl]

theorem Ends.takeWhile_append {rest tail : List Char} {among : Char → Bool} (ends : Ends rest)
    (narrow : ∀ char, among char → isWordChar char) (all : ∀ char ∈ tail, among char) :
    (tail ++ rest).takeWhile among = tail := by
  apply takeWhile_append_of_stops all
  intro next begins
  rw [Bool.eq_false_iff]
  intro goesOn
  have ended := ends next begins
  rw [narrow next goesOn] at ended
  cases ended

theorem isWordChar_of_isDigit {char : Char} (digit : char.isDigit) : isWordChar char := by
  show (char.isAlpha || char.isDigit || char == '_') = true
  rw [digit, Bool.or_true, Bool.true_or]

/-- Words start with an ASCII letter or an underscore. -/
theorem isWordStart_iff {char : Char} : isWordStart char ↔ 65 ≤ char.toNat ∧ char.toNat ≤ 90 ∨
    97 ≤ char.toNat ∧ char.toNat ≤ 122 ∨ char.toNat = 95 := by
  show ((decide ('A'.val ≤ char.val ∧ char.val ≤ 'Z'.val) ||
    (decide ('a'.val ≤ char.val) && decide (char.val ≤ 'z'.val))) || char == '_') = true ↔ _
  simp [UInt32.le_iff_toNat_le, ← Char.toNat_inj, or_assoc]

theorem isWordStart_of_isDigit {char : Char} (digit : char.isDigit) : isWordStart char = false := by
  rw [← Bool.not_eq_true, isWordStart_iff]
  simp [Char.isDigit, UInt32.le_iff_toNat_le] at digit
  omega

theorem scan?_blank {first : Char} (blank : Text.isBlank first) (rest : List Char) :
    Lexeme.scan? first rest = some (.skipped (rest.takeWhile Text.isBlank)) := by
  have noWord : isWordStart first = false := by
    rw [← Bool.not_eq_true, isWordStart_iff]
    simp [Text.isBlank] at blank
    omega
  have noDigit : first.isDigit = false := by
    simp [Text.isBlank, Char.isDigit, UInt32.le_iff_toNat_le] at *
    omega
  simp [Lexeme.scan?, noWord, noDigit, blank]

end Token

namespace Text

/-- An escaped text holds no quote that would close it. -/
theorem literalBody?_escape (value rest : List Char) :
    literalBody? (escape value ++ '"' :: rest) = some (escape value) := by
  induction value with
  | nil => rfl
  | cons char tail ih =>
    rw [escape]
    split_ifs with backslash quote
    · simp [literalBody?, ih]
    · simp [literalBody?, ih]
    · simp [literalBody?, ih]
    · simp [literalBody?, ih]
    · rw [List.cons_append, literalBody?]
      · simp [ih, backslash]
      · simp [quote]
      · simp [backslash]

theorem unescape_escape (value : List Char) : unescape (escape value) = value := by
  induction value with
  | nil => rfl
  | cons char tail ih =>
    rw [escape]
    split_ifs with backslash quote newline tab
    · simp [unescape, ih, backslash]
    · simp [unescape, ih, quote]
    · simp [unescape, ih, newline]
    · simp [unescape, ih, tab]
    · rw [unescape]
      · rw [ih]
      all_goals simp [backslash]

end Text

namespace Token.Lexes
variable {rest : List Char} {text : List Terminal}

theorem word {word : String} (spelled : isWord word) (ends : Ends rest) (lexes : Lexes rest text) :
    Lexes (word.toList ++ rest) (Terminal.of ⟨wordKind word, word, .nowhere⟩ :: text) := by
  unfold isWord at spelled
  split at spelled
  next => cases spelled
  next first tail chars =>
    rw [Bool.and_eq_true, List.all_eq_true] at spelled
    have whole : (tail ++ rest).takeWhile isWordChar = tail :=
      ends.takeWhile_append (fun _ among => among) spelled.2
    have same : String.ofList (first :: tail) = word := by rw [← chars, String.ofList_toList]
    have scanned : Lexeme.scan? first (tail ++ rest) =
        some (.token (wordKind word) (first :: tail) tail) := by
      simp only [Lexeme.scan?, spelled.1, if_true, whole, same]
    rw [chars, List.cons_append]
    simpa only [same] using Lexes.token scanned lexes

theorem name {name : String} (spelled : IsName name) (ends : Ends rest) (lexes : Lexes rest text) :
    Lexes (name.toList ++ rest) (.name name :: text) := by
  have reads := word spelled.word ends lexes
  rwa [Terminal.of_eq_name spelled.free] at reads

theorem reserved {word : String} {kind : Kind} (known : (word, kind) ∈ reservedWords) (ends : Ends rest)
    (lexes : Lexes rest text) : Lexes (word.toList ++ rest) (.mark kind :: text) := by
  obtain ⟨spelled, found, plain⟩ := wordKind_of_mem known
  have reads := Lexes.word spelled ends lexes
  rwa [Terminal.of_eq_mark found plain] at reads

theorem number {digits : String} (spelled : IsNumber digits) (ends : Ends rest)
    (lexes : Lexes rest text) : Lexes (digits.toList ++ rest) (.number digits :: text) := by
  obtain ⟨nonempty, all⟩ := spelled
  cases chars : digits.toList with
  | nil => exact absurd chars nonempty
  | cons first tail =>
    rw [chars, List.forall_mem_cons] at all
    have whole : (tail ++ rest).takeWhile Char.isDigit = tail :=
      ends.takeWhile_append (fun _ => isWordChar_of_isDigit) all.2
    have same : String.ofList (first :: tail) = digits := by rw [← chars, String.ofList_toList]
    have scanned : Lexeme.scan? first (tail ++ rest) =
        some (.token .number (first :: tail) tail) := by
      simp [Lexeme.scan?, isWordStart_of_isDigit all.1, all.1, whole]
    have reads := Lexes.token scanned lexes
    rw [same] at reads
    exact reads

theorem literal (value : String) (lexes : Lexes rest text) :
    Lexes ('"' :: (Text.escape value.toList ++ '"' :: rest)) (.string value :: text) := by
  have scanned : Lexeme.scan? '"' (Text.escape value.toList ++ ['"'] ++ rest) =
      some (.token .string value.toList (Text.escape value.toList ++ ['"'])) := by
    have body := Text.literalBody?_escape value.toList rest
    have chosen : Lexeme.scan? '"' (Text.escape value.toList ++ '"' :: rest) =
        (Text.literalBody? (Text.escape value.toList ++ '"' :: rest)).map fun body =>
          .token .string (Text.unescape body) (body ++ ['"']) := rfl
    rw [List.append_assoc, List.singleton_append, chosen, body, Option.map_some, Text.unescape_escape]
  have reads := Lexes.token scanned lexes
  rw [String.ofList_toList, List.append_assoc, List.singleton_append] at reads
  exact reads

theorem sign (first : Char) (kind : Kind)
    (scanned : Lexeme.scan? first rest = some (.token kind [first] [])) (plain : kind.isMark)
    (lexes : Lexes rest text) : Lexes (first :: rest) (.mark kind :: text) := by
  have reads := @Lexes.token first [] rest kind [first] text scanned lexes
  rwa [Terminal.of_eq_mark rfl plain] at reads

/-- White space before a text is skipped together with the white space that the text begins with. -/
theorem blank {first : Char} (white : Text.isBlank first) (lexes : Lexes rest text) :
    Lexes (first :: rest) text := by
  by_cases further : ∃ next others, rest = next :: others ∧ Text.isBlank next
  · obtain ⟨next, others, same, whiteNext⟩ := further
    cases lexes with
    | nil => cases same
    | @skipped _ tail rest _ scanned lexes =>
      obtain ⟨rfl, rfl⟩ := List.cons.inj same
      rw [scan?_blank whiteNext] at scanned
      have tailBlank := Lexeme.skipped.inj (Option.some.inj scanned)
      refine @Lexes.skipped first (_ :: tail) rest text ?_ lexes
      rw [scan?_blank white, List.cons_append, List.takeWhile_cons_of_pos whiteNext, tailBlank]
    | @token _ tail rest _ _ _ scanned lexes =>
      obtain ⟨rfl, rfl⟩ := List.cons.inj same
      rw [scan?_blank whiteNext] at scanned
      cases scanned
  · refine @Lexes.skipped first [] rest text ?_ lexes
    rw [scan?_blank white, List.nil_append]
    cases rest with
    | nil => rfl
    | cons next others =>
      have stops : ¬ Text.isBlank next = true := fun white => further ⟨next, others, rfl, white⟩
      rw [List.takeWhile_cons_of_neg stops]

theorem space (lexes : Lexes rest text) : Lexes (' ' :: rest) text :=
  lexes.blank rfl

theorem lineBreak (lexes : Lexes rest text) : Lexes ('\n' :: rest) text :=
  lexes.blank rfl

/-- An operator between spaces. -/
theorem operator (operator : Operator) (lexes : Lexes rest text) :
    Lexes (' ' :: (operator.symbol.toList ++ ' ' :: rest)) (.mark operator.kind :: text) := by
  apply space
  have later := lexes.space
  have ends := ends_cons rest (show isWordChar ' ' = false from rfl)
  cases operator with
  | and => exact reserved (by decide) ends later
  | or => exact reserved (by decide) ends later
  | equal => exact @Lexes.token '=' ['='] _ .equals ['=', '='] _ rfl later
  | _ => exact sign _ _ rfl rfl later

end Token.Lexes
end Multiparty
