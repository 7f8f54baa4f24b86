import Mathlib
import Multiparty.Proofs.Tiling

/-! Beginnings of a text that the lexer has read. What it makes of a beginning depends on the rest of the text through
the next character alone, so that the same beginning may stand before another text. -/

namespace Multiparty

namespace Text

theorem literalBody?_of_literalInside {inside : List Char} (shape : LiteralInside inside) (after : List Char) :
    literalBody? (inside ++ '"' :: after) = some inside := by
  induction shape with
  | nil => rfl
  | plain noQuote noBackslash _ ih =>
    rw [List.cons_append, literalBody?]
    · rw [if_neg noBackslash, ih, Option.map_some]
    · exact fun quote => absurd quote noQuote
    · exact fun _ _ backslash => absurd backslash noBackslash
  | escaped noBreak _ ih =>
    rw [List.cons_append, List.cons_append, literalBody?, if_neg noBreak, ih, Option.map_some]

theorem SkippedPiece.ne_nil {after piece : List Char} (skips : SkippedPiece after piece) : piece ≠ [] := by
  cases skips with
  | blanks nonempty => exact nonempty
  | comment => exact List.cons_ne_nil _ _

end Text

namespace Token
open Text

/-! The lexer reads what is spelled and passes over what is skipped. -/

theorem wordKind_eq_identifier {text : List Char}
    (free : ∀ kind, (String.ofList text, kind) ∉ reservedWords) : wordKind (.ofList text) = .identifier := by
  rcases found : reservedWords.lookup (String.ofList text) with _ | kind
  · rw [wordKind, found, Option.getD_none]
  · obtain ⟨before, after, words, -⟩ := List.lookup_eq_some_iff.mp found
    exact absurd (by simp [words]) (free kind)

theorem scan?_word {text after : List Char} (word : isWord (.ofList text)) (ends : Ends after) :
    ∃ first tail, text = first :: tail ∧
      Lexeme.scan? first (tail ++ after) = some (.token (wordKind (.ofList text)) text tail) := by
  rw [isWord, String.toList_ofList] at word
  cases text with
  | nil => cases word
  | cons first tail =>
    rw [Bool.and_eq_true, List.all_eq_true] at word
    have whole := ends.takeWhile_append (fun _ among => among) word.2
    exact ⟨first, tail, rfl, by simp only [Lexeme.scan?, word.1, if_true, whole]⟩

theorem scan?_number {text after : List Char} (digits : IsNumber (.ofList text))
    (stops : ∀ next ∈ after.head?, next.isDigit = false) :
    ∃ first tail, text = first :: tail ∧
      Lexeme.scan? first (tail ++ after) = some (.token .number text tail) := by
  obtain ⟨nonempty, all⟩ := digits
  rw [String.toList_ofList] at nonempty all
  obtain ⟨first, tail, rfl⟩ := List.exists_cons_of_ne_nil nonempty
  rw [List.forall_mem_cons] at all
  have whole : (tail ++ after).takeWhile Char.isDigit = tail := takeWhile_append_of_stops all.2 stops
  exact ⟨first, tail, rfl, by simp [Lexeme.scan?, isWordStart_of_isDigit all.1, all.1, whole]⟩

theorem scan?_literal {inside : List Char} (shape : LiteralInside inside) (after : List Char) :
    Lexeme.scan? '"' (inside ++ ['"'] ++ after) =
      some (.token .string (unescape inside) (inside ++ ['"'])) := by
  have chosen (rest : List Char) : Lexeme.scan? '"' rest =
      (literalBody? rest).map fun body => .token .string (unescape body) (body ++ ['"']) := rfl
  rw [List.append_assoc, List.singleton_append, chosen, literalBody?_of_literalInside shape, Option.map_some]

/-- A symbol that does not go on is the first one that fits. -/
theorem scan?_symbol {kind : Kind} {text after : List Char} (listed : (text, kind) ∈ symbols)
    (stops : ∀ next ∈ after.head?, kind.continuation? ≠ some next) :
    ∃ first tail, text = first :: tail ∧
      Lexeme.scan? first (tail ++ after) = some (.token kind text tail) := by
  have assignment (apart : ∀ next ∈ after.head?, some '=' ≠ some next) :
      Lexeme.scan? '=' after = some (.token .assignment ['='] []) := by
    show Lexeme.symbol? '=' after = _
    cases after with
    | nil => rfl
    | cons next rest => simp [Lexeme.symbol?, symbols, show '=' ≠ next by simpa using apart next rfl]
  have pipe (apart : ∀ next ∈ after.head?, some '|' ≠ some next) :
      Lexeme.scan? '|' after = some (.token .pipe ['|'] []) := by
    show Lexeme.symbol? '|' after = _
    cases after with
    | nil => rfl
    | cons next rest => simp [Lexeme.symbol?, symbols, show '|' ≠ next by simpa using apart next rfl]
  have slash (apart : ∀ next ∈ after.head?, some '/' ≠ some next) :
      Lexeme.scan? '/' after = some (.token .slash ['/'] []) := by
    have noComment : ¬ ('/' = '/' ∧ after.head? = some '/') := by
      rintro ⟨-, comment⟩
      exact apart '/' comment rfl
    show (if _ then _ else Lexeme.symbol? '/' after) = _
    rw [if_neg noComment]
    rfl
  simp only [symbols, List.mem_cons, List.not_mem_nil, or_false, Prod.mk.injEq] at listed
  rcases listed with h | h | h | h | h | h | h | h | h | h | h | h | h | h | h | h | h | h | h | h
  all_goals
    obtain ⟨rfl, rfl⟩ := h
    refine ⟨_, _, rfl, ?_⟩
  -- no other symbol begins a longer one
  all_goals first | rfl | exact assignment stops | exact pipe stops | exact slash stops

theorem scan?_of_spells {after value piece : List Char} {kind : Kind} (spells : Spells after kind value piece) :
    ∃ first tail, piece = first :: tail ∧
      Lexeme.scan? first (tail ++ after) = some (.token kind value tail) := by
  cases spells with
  | name word ends free =>
    have scanned := scan?_word word ends
    rwa [wordKind_eq_identifier free] at scanned
  | reserved word ends listed =>
    have scanned := scan?_word word ends
    rwa [(wordKind_of_mem listed).2.1] at scanned
  | number digits stops => exact scan?_number digits stops
  | literal shape => exact ⟨_, _, rfl, scan?_literal shape after⟩
  | symbol listed stops => exact scan?_symbol listed stops

theorem scan?_comment {body after : List Char} (inside : '\n' ∉ body)
    (ended : ∀ next ∈ after.head?, next = '\n') :
    Lexeme.scan? '/' ('/' :: body ++ after) = some (.skipped ('/' :: body)) := by
  have whole : ('/' :: body ++ after).takeWhile (· ≠ '\n') = '/' :: body := by
    apply takeWhile_append_of_stops
    · intro char among
      rcases List.mem_cons.mp among with rfl | among
      · rfl
      · simpa using ne_of_mem_of_not_mem among inside
    · simpa using ended
  show (if '/' = '/' ∧ ('/' :: body ++ after).head? = some '/' then
    some (Lexeme.skipped (('/' :: body ++ after).takeWhile (· ≠ '\n')))
      else Lexeme.symbol? '/' ('/' :: body ++ after)) = _
  rw [if_pos ⟨rfl, rfl⟩, whole]

/-- White space may be read in any number of steps. -/
theorem listFrom_blanks (file : String) (byte : Nat) {run : List Char} (blank : ∀ char ∈ run, isBlank char)
    (after : List Char) :
    listFrom file byte (run ++ after) = listFrom file (byte + byteCount run) after := by
  cases run with
  | nil => rfl
  | cons first tail =>
    rw [List.forall_mem_cons] at blank
    rw [List.cons_append, listFrom, scan?_blank blank.1, List.takeWhile_append_of_pos blank.2]
    simp only [Lexeme.tail]
    -- the step takes the white space that `after` begins with too
    cases after with
    | nil => simp
    | cons next rest =>
      by_cases white : isBlank next
      · rw [listFrom, scan?_blank white, List.takeWhile_cons_of_pos white]
        simp [Lexeme.tail, Nat.add_assoc]
      · simp [white]

theorem listFrom_skipped (file : String) (byte : Nat) {piece after : List Char} (skips : SkippedPiece after piece) :
    listFrom file byte (piece ++ after) = listFrom file (byte + byteCount piece) after := by
  cases skips with
  | blanks _ blank => exact listFrom_blanks file byte blank after
  | comment inside ended =>
    rw [List.cons_append, listFrom, scan?_comment inside ended]
    simp only [Lexeme.tail, List.drop_left]

theorem listFrom_token (file : String) (byte : Nat) {after value piece : List Char} {kind : Kind}
    (spells : Spells after kind value piece) :
    listFrom file byte (piece ++ after) = (listFrom file (byte + byteCount piece) after).map fun tokens =>
      ⟨kind, .ofList value, .ofBytes byte (byteCount piece) file⟩ :: tokens := by
  obtain ⟨first, tail, rfl, scanned⟩ := scan?_of_spells spells
  rw [List.cons_append, listFrom, scanned]
  simp only [Lexeme.tail, List.drop_left]

/-- No token that ends before this character goes on with it. -/
structure Severs (next : Char) : Prop where
  word : isWordChar next = false
  symbol : next ∉ ['=', '|', '/']

theorem Severs.spells {after other value piece : List Char} {kind : Kind} (severs : ∀ next ∈ other.head?, Severs next)
    (spells : Spells after kind value piece) : Spells other kind value piece := by
  cases spells with
  | name word _ free => exact .name word (fun next head => (severs next head).word) free
  | reserved word _ listed => exact .reserved word (fun next head => (severs next head).word) listed
  | number digits =>
    refine .number digits fun next head => ?_
    rw [← Bool.not_eq_true]
    intro digit
    have word := (severs next head).word
    rw [isWordChar_of_isDigit digit] at word
    cases word
  | literal shape => exact .literal shape
  | @symbol kind _ listed =>
    refine .symbol listed fun next head continues => (severs next head).symbol ?_
    cases kind <;> cases continues <;> decide

/-- The lexer reads these tokens from `before` if `after` is the rest of the text, and stands where `after` begins. -/
inductive ReadBefore (file : String) : List Char → List Char → List Token → Prop
  | start {after : List Char} : ReadBefore file after [] []
  | skip {before piece after : List Char} {tokens : List Token} :
    ReadBefore file (piece ++ after) before tokens → SkippedPiece after piece →
    ReadBefore file after (before ++ piece) tokens
  | token {before piece after value : List Char} {kind : Kind} {tokens : List Token} :
    ReadBefore file (piece ++ after) before tokens → Spells after kind value piece →
    ReadBefore file after (before ++ piece) (tokens ++
      [⟨kind, .ofList value, ⟨⟨byteCount before, file⟩, ⟨byteCount (before ++ piece), file⟩⟩⟩])

section
variable {file : String} {before after other : List Char} {tokens : List Token}

/-- What was read comes first, then what the rest of the text gives. -/
theorem ReadBefore.listFrom_eq (read : ReadBefore file after before tokens)
    (fits : byteCount (before ++ after) < UInt32.size) :
    listFrom file 0 (before ++ after) = (listFrom file (byteCount before) after).map (tokens ++ ·) := by
  induction read with
  | @start after =>
    cases ran : listFrom file 0 after <;> simp [ran, Except.map]
  | @skip before piece after tokens _ skips ih =>
    rw [List.append_assoc] at fits ⊢
    rw [ih fits, listFrom_skipped file _ skips, byteCount_append]
  | @token before piece after value kind tokens _ spells ih =>
    rw [List.append_assoc] at fits ⊢
    rw [ih fits, listFrom_token file _ spells, ofBytes_eq fits, byteCount_append]
    cases listFrom file (byteCount before + byteCount piece) after <;> simp [Except.map]

/-- The rest of the text matters through its first character only. -/
theorem ReadBefore.congr (read : ReadBefore file after before tokens) (same : after.head? = other.head?) :
    ReadBefore file other before tokens := by
  induction read generalizing other with
  | start => exact .start
  | skip _ skips ih =>
    refine .skip (ih (by simp only [List.head?_append, same])) ?_
    cases skips with
    | blanks nonempty blank => exact .blanks nonempty blank
    | comment inside ended => exact .comment inside (same ▸ ended)
  | token _ spells ih =>
    refine .token (ih (by simp only [List.head?_append, same])) ?_
    cases spells with
    | name word ends free => exact .name word (by rwa [Ends, ← same]) free
    | reserved word ends listed => exact .reserved word (by rwa [Ends, ← same]) listed
    | number digits stops => exact .number digits (same ▸ stops)
    | literal shape => exact .literal shape
    | symbol listed stops => exact .symbol listed (same ▸ stops)

/-- The same beginning may stand before a text that no token goes on into. If a comment is open where it ends, that
text begins with a line break. -/
theorem ReadBefore.onto (read : ReadBefore file after before tokens) (severs : ∀ next ∈ other.head?, Severs next)
    (breaks : ∀ front body others, before = front ++ '/' :: '/' :: body → '\n' ∉ body →
      ReadBefore file ('/' :: '/' :: body) front others → ∀ next ∈ other.head?, next = '\n') :
    ReadBefore file other before tokens := by
  cases read with
  | start => exact .start
  | @skip front piece _ _ earlier skips =>
    cases skips with
    | blanks nonempty blank =>
      obtain ⟨first, tail, rfl⟩ := List.exists_cons_of_ne_nil nonempty
      exact .skip (earlier.congr rfl) (.blanks nonempty blank)
    | comment inside =>
      exact .skip (earlier.congr rfl) (.comment inside (breaks _ _ _ rfl inside (earlier.congr rfl)))
  | token earlier spells =>
    obtain ⟨first, tail, rfl⟩ := List.exists_cons_of_ne_nil spells.ne_nil
    exact .token (earlier.congr rfl) (Severs.spells severs spells)

/-- Nothing needs to follow what was read. -/
theorem ReadBefore.alone (read : ReadBefore file after before tokens) : ReadBefore file [] before tokens :=
  read.onto nofun fun _ _ _ _ _ _ => nofun

theorem ReadBefore.list_eq (read : ReadBefore file after before tokens)
    (fits : byteCount before < UInt32.size) :
    listFrom file 0 before = .ok (tokens ++ [endOfInput ⟨byteCount before, file⟩]) := by
  have whole := read.alone.listFrom_eq (by rwa [List.append_nil])
  rw [List.append_nil] at whole
  rw [whole, listFrom, ofByte_eq fits]
  rfl

/-- How the lexer goes on from `before`: it reads the rest, or stops at a character that nothing begins with. -/
def GoesOn (file : String) (before after : List Char) (tokens : List Token) :
    Except Diagnostic (List Token) → Prop
  | .ok later => ∃ further, later = further ++ [endOfInput ⟨byteCount (before ++ after), file⟩] ∧
      ReadBefore file [] (before ++ after) (tokens ++ further)
  | .error diagnostic => ∃ piece char rest further, after = piece ++ char :: rest ∧
      ReadBefore file (char :: rest) (before ++ piece) (tokens ++ further) ∧
      Lexeme.scan? char rest = none ∧
      diagnostic = ⟨.unrecognised (.singleton char), ⟨byteCount (before ++ piece), file⟩⟩

theorem ReadBefore.goesOn (read : ReadBefore file after before tokens)
    (fits : byteCount (before ++ after) < UInt32.size) :
    GoesOn file before after tokens (listFrom file (byteCount before) after) := by
  refine @listFrom_by_pieces file (fun before after result => ∀ tokens, ReadBefore file after before tokens →
    GoesOn file before after tokens result) ?ended ?refused ?skip ?token _ _ _ rfl fits tokens read
  case ended =>
    intro before tokens read
    exact ⟨[], by simp, by simpa using read⟩
  case refused =>
    intro before first rest scanned tokens read
    exact ⟨[], first, rest, [], rfl, by simpa using read, scanned, by simp⟩
  case skip =>
    intro before piece rest result skips goesOn tokens read
    have further := goesOn tokens (read.skip skips)
    cases result with
    | ok later =>
      rw [GoesOn, List.append_assoc] at further
      exact further
    | error diagnostic =>
      obtain ⟨front, char, after, others, rfl, stopped, scanned, rfl⟩ := further
      rw [List.append_assoc] at stopped ⊢
      exact ⟨piece ++ front, char, after, others, (List.append_assoc _ _ _).symm, stopped, scanned, rfl⟩
  case token =>
    intro before piece rest kind value result spells _ goesOn tokens read
    have further := goesOn _ (read.token spells)
    cases result with
    | ok later =>
      obtain ⟨others, rfl, whole⟩ := further
      rw [List.append_assoc, List.append_assoc] at whole
      rw [List.append_assoc]
      exact ⟨_ :: others, rfl, whole⟩
    | error diagnostic =>
      obtain ⟨front, char, after, others, rfl, stopped, scanned, rfl⟩ := further
      rw [List.append_assoc, List.append_assoc] at stopped
      rw [List.append_assoc]
      exact ⟨piece ++ front, char, after, _ :: others, (List.append_assoc _ _ _).symm, stopped, scanned, rfl⟩

end

section
variable {source : String} {file? : Option String} {tokens : List Token}

theorem readBefore_of_list (small : source.utf8ByteSize < 2 ^ 32) (listed : list source file? = .ok tokens) :
    ∃ body, tokens = body ++ [endOfInput ⟨source.utf8ByteSize, file?.getD Scanner.defaultFile⟩] ∧
      ReadBefore (file?.getD Scanner.defaultFile) [] source.toList body := by
  rw [← byteCount_toList] at small ⊢
  have goesOn := (@ReadBefore.start (file?.getD Scanner.defaultFile) source.toList).goesOn small
  rw [list] at listed
  rw [byteCount_nil, listed] at goesOn
  exact goesOn

/-- A beginning that was read is a text that the lexer accepts. -/
theorem ReadBefore.accepted {before after : List Char}
    (read : ReadBefore (file?.getD Scanner.defaultFile) after before tokens)
    (fits : byteCount (before ++ after) < UInt32.size) : ∃ listed, list (.ofList before) file? = .ok listed := by
  rw [list, String.toList_ofList]
  rw [byteCount_append] at fits
  exact ⟨_, read.list_eq (by omega)⟩

theorem list_eq_error {diagnostic : Diagnostic}
    (small : source.utf8ByteSize < 2 ^ 32) (refused : list source file? = .error diagnostic) :
    ∃ before char after tokens, source.toList = before ++ char :: after ∧
      ReadBefore (file?.getD Scanner.defaultFile) (char :: after) before tokens ∧
      Lexeme.scan? char after = none ∧
      diagnostic = ⟨.unrecognised (.singleton char), ⟨byteCount before, file?.getD Scanner.defaultFile⟩⟩ := by
  rw [← byteCount_toList] at small
  have goesOn := (@ReadBefore.start (file?.getD Scanner.defaultFile) source.toList).goesOn small
  rw [list] at refused
  rw [byteCount_nil, refused] at goesOn
  obtain ⟨before, char, after, tokens, whole, read, scanned, same⟩ := goesOn
  exact ⟨before, char, after, tokens, whole, read, scanned, same⟩

end

/-- A comment is open where the text ends: two slashes stand where a token could begin, and no line break follows. -/
def EndsInComment (file? : Option String) (text : List Char) : Prop :=
  ∃ before body, text = before ++ '/' :: '/' :: body ∧ '\n' ∉ body ∧
    ∃ tokens, list (.ofList before) file? = .ok tokens

/-- Only a slash goes on with a slash. -/
theorem Spells.slash_or_before_slash {after value piece : List Char} {kind : Kind}
    (spells : Spells after kind value piece) : piece = ['/'] ∨ ∀ rest, Spells ('/' :: rest) kind value piece := by
  cases spells with
  | name word _ free => exact .inr fun rest => .name word (ends_cons rest rfl) free
  | reserved word _ listed => exact .inr fun rest => .reserved word (ends_cons rest rfl) listed
  | number digits => exact .inr fun rest => .number digits (by simp)
  | literal shape => exact .inr fun rest => .literal shape
  | symbol listed =>
    have onlySlash : ∀ entry ∈ symbols, entry.2.continuation? = some '/' → entry.1 = ['/'] := by decide
    by_cases continues : kind.continuation? = some '/'
    · exact .inl (onlySlash _ listed continues)
    · exact .inr fun rest => .symbol listed (by simpa using continues)

/-- Two slashes after a text that the lexer accepts begin a comment or stand in one that began before them. -/
theorem opens_comment {before body : List Char} {tokens : List Token} {file : String}
    (read : ReadBefore file [] before tokens) (inside : '\n' ∉ body) :
    ∃ front comment others, before ++ '/' :: '/' :: body = front ++ '/' :: '/' :: comment ∧ '\n' ∉ comment ∧
      ∀ after, ReadBefore file ('/' :: '/' :: (comment ++ after)) front others := by
  have here (slashes : ∀ after, ReadBefore file ('/' :: '/' :: (body ++ after)) before tokens) :
      ∃ front comment others, before ++ '/' :: '/' :: body = front ++ '/' :: '/' :: comment ∧ '\n' ∉ comment ∧
        ∀ after, ReadBefore file ('/' :: '/' :: (comment ++ after)) front others :=
    ⟨before, body, tokens, rfl, inside, slashes⟩
  cases read with
  | start => exact here fun after => .start
  | @skip front piece _ _ earlier skips =>
    cases skips with
    | blanks nonempty blank =>
      obtain ⟨first, tail, rfl⟩ := List.exists_cons_of_ne_nil nonempty
      exact here fun after => .skip (earlier.congr rfl) (.blanks nonempty blank)
    | @comment earlierBody outside =>
      refine ⟨front, earlierBody ++ '/' :: '/' :: body, _, by simp, ?_, fun after => earlier.congr rfl⟩
      simp [outside, inside]
  | @token front piece _ value kind _ earlier spells =>
    rcases spells.slash_or_before_slash with rfl | apart
    · exact ⟨front, '/' :: body, _, by simp, by simpa using inside, fun after => earlier.congr rfl⟩
    · obtain ⟨first, tail, rfl⟩ := List.exists_cons_of_ne_nil spells.ne_nil
      exact here fun after => .token (earlier.congr rfl) (apart _)

end Token
end Multiparty
