import Mathlib
import Multiparty.Proofs.LineBreaks
import Multiparty.Tree.Printer

/-! A text that is printed as a literal is read back as it was, whatever stands in it. What follows the literal is read
as it would be by itself, only further on. -/

namespace Multiparty

/-- Further on by so many bytes. Places wrap around after 32 bits. -/
def Position.moved (count : Nat) (place : Position) : Position :=
  .ofByte (count + place.offset) place.file

def Token.moved (count : Nat) (token : Token) : Token :=
  token.relocated (Position.moved count)

namespace Text

/-- Between quotes, as it is. -/
def enclosed (inside : List Char) : String :=
  "\"" ++ .ofList inside ++ "\""

theorem toList_enclosed (inside : List Char) : (enclosed inside).toList = '"' :: (inside ++ ['"']) := by
  simp [enclosed]

theorem literalInside_escape (value : List Char) : LiteralInside (escape value) :=
  (literalInside_of_literalBody? (literalBody?_escape value [])).1

end Text

namespace Token
open Text

theorem ofByte_moved (count byte : Nat) (file : String) :
    Position.ofByte (count + byte) file = (Position.ofByte byte file).moved count := by
  rw [Position.moved, Position.ofByte, Position.ofByte, Position.ofByte, Nat.add_mod_mod]

section
variable {file : String} {count byte : Nat} {chars : List Char} {tokens : List Token}

theorem listFrom_moved (ran : listFrom file byte chars = .ok tokens) (count : Nat) :
    listFrom file (count + byte) chars = .ok (tokens.map (moved count)) := by
  have agree : Agree file (Position.moved count) (count + byte) byte (byteCount chars) := by
    intro offset _
    rw [Nat.add_assoc, ofByte_moved]
  rw [listFrom_relocated agree, ran]
  rfl

/-- Within 32 bits no place wraps around. -/
theorem map_moved_eq (ran : listFrom file byte chars = .ok tokens)
    (fits : count + byte + byteCount chars < UInt32.size) : tokens.map (moved count) = tokens.map (shifted count) := by
  have further := listFrom_moved ran count
  rw [listFrom_shifted fits, ran] at further
  exact (Except.ok.inj further).symm

end

/-- What is read where a literal of so many bytes with that value comes first and `tokens` are those of the rest. -/
def afterLiteral (file : String) (size : Nat) (value : String) (tokens : List Token) : List Token :=
  ⟨.string, value, .ofBytes 0 size file⟩ :: tokens.map (moved size)

/-- A literal is read up to its closing quote, whatever comes next. -/
theorem list_enclosed {inside : List Char} (shape : LiteralInside inside) {rest : String} {file? : Option String}
    {tokens : List Token} (listed : list rest file? = .ok tokens) :
    list (enclosed inside ++ rest) file? = .ok (afterLiteral (file?.getD Scanner.defaultFile)
      (enclosed inside).utf8ByteSize (.ofList (unescape inside)) tokens) := by
  have size : byteCount ('"' :: (inside ++ ['"'])) = (enclosed inside).utf8ByteSize := by
    rw [← toList_enclosed, byteCount_toList]
  have following := listFrom_moved listed (enclosed inside).utf8ByteSize
  rw [list, String.toList_append, toList_enclosed, List.cons_append, listFrom, scan?_literal shape]
  simp only [Lexeme.tail, List.drop_left, size]
  rw [Nat.zero_add, ← Nat.add_zero (enclosed inside).utf8ByteSize, following]
  rfl

theorem list_literal (value : String) {rest : String} {file? : Option String} {tokens : List Token}
    (listed : list rest file? = .ok tokens) : list (Typed.literal value ++ rest) file? =
      .ok (afterLiteral (file?.getD Scanner.defaultFile) (Typed.literal value).utf8ByteSize value tokens) := by
  have read := list_enclosed (literalInside_escape value.toList) listed
  rwa [unescape_escape, String.ofList_toList] at read

/-- Where the whole fits into 32 bits, the literal begins at the start of the file and ends after its size. -/
theorem afterLiteral_eq {size : Nat} {rest : String} {file? : Option String} {tokens : List Token}
    (listed : list rest file? = .ok tokens) (small : size + rest.utf8ByteSize < 2 ^ 32) (value : String) :
    let file := file?.getD Scanner.defaultFile
    afterLiteral file size value tokens =
      ⟨.string, value, ⟨⟨0, file⟩, ⟨size, file⟩⟩⟩ :: tokens.map (shifted size) := by
  intro file
  have fits : size + 0 + byteCount rest.toList < UInt32.size := by
    rwa [Nat.add_zero, byteCount_toList]
  rw [afterLiteral, map_moved_eq listed fits, Span.ofBytes, Nat.zero_add, ofByte_eq (by omega), ofByte_eq (by omega)]

theorem Spells.literal_of_string {after value piece : List Char} (spells : Spells after .string value piece) :
    ∃ inside, LiteralInside inside ∧ value = unescape inside ∧ piece = '"' :: (inside ++ ['"']) := by
  generalize named : Kind.string = kind at spells
  cases spells with
  | literal shape => exact ⟨_, shape, rfl, rfl⟩
  | name | number => cases named
  | reserved _ _ listed =>
    have others : ∀ entry ∈ reservedWords, entry.2 ≠ .string := by decide
    exact absurd named.symm (others _ listed)
  | symbol listed =>
    have others : ∀ entry ∈ symbols, entry.2 ≠ .string := by decide
    exact absurd named.symm (others _ listed)

/-- The token is read from that literal of the source, which begins at byte `byte` of the file. -/
structure IsFrom (file : String) (byte : Nat) (source inside : List Char) (token : Token) : Prop where
  shape : LiteralInside inside
  value : token.value = .ofList (unescape inside)
  place : ∃ before after, source = before ++ (enclosed inside).toList ++ after ∧
    token.span = .ofBytes (byte + byteCount before) (enclosed inside).utf8ByteSize file

theorem IsFrom.after {file : String} {byte : Nat} {before source inside : List Char} {token : Token}
    (found : IsFrom file (byte + byteCount before) source inside token) :
    IsFrom file byte (before ++ source) inside token := by
  obtain ⟨shape, value, further, after, rfl, place⟩ := found
  refine ⟨shape, value, before ++ further, after, ?_, ?_⟩
  · simp only [List.append_assoc]
  · rw [place, byteCount_append, Nat.add_assoc]

/-- Every string comes from a literal of the source. -/
theorem exists_literal {file : String} {byte : Nat} {chars : List Char} {tokens : List Token}
    (ran : listFrom file byte chars = .ok tokens) {token : Token} (among : token ∈ tokens)
    (isString : token.kind = .string) : ∃ inside, IsFrom file byte chars inside token := by
  fun_induction listFrom file byte chars generalizing tokens with
  | case1 byte =>
    cases ran
    rw [List.mem_singleton.mp among] at isString
    cases isString
  | case2 => cases ran
  | case3 byte first rest tail scanned length =>
    rename_i following ih
    obtain ⟨after, rfl, -⟩ := scan?_reads scanned
    simp only [following, length, Lexeme.tail, List.drop_left] at ih ran
    obtain ⟨inside, found⟩ := ih ran among
    exact ⟨inside, @IsFrom.after _ _ (first :: tail) _ _ _ found⟩
  | case4 byte first rest kind value tail scanned length =>
    rename_i following ih
    obtain ⟨after, rfl, spells⟩ := scan?_reads scanned
    simp only [following, length, Lexeme.tail, List.drop_left] at ih ran
    obtain ⟨others, ranOthers, rfl⟩ := map_eq_ok ran
    rcases List.mem_cons.mp among with rfl | later
    · obtain rfl : kind = .string := isString
      obtain ⟨inside, shape, rfl, piece⟩ := spells.literal_of_string
      rw [← toList_enclosed] at piece
      refine ⟨inside, shape, rfl, [], after, ?_, ?_⟩
      · rw [List.nil_append, ← piece]
        rfl
      · rw [piece, byteCount_toList]
        rfl
    · obtain ⟨inside, found⟩ := ih ranOthers later
      exact ⟨inside, @IsFrom.after _ _ (first :: tail) _ _ _ found⟩

/-- Any text is read back from the literal it is printed as, before anything that is read, which comes out as it would
by itself but further on. Every literal of a source is read as that which its value is printed as. -/
theorem list_printed (value : String) {rest : String} {file? : Option String} {tokens : List Token}
    (listed : list rest file? = .ok tokens) :
    let file := file?.getD Scanner.defaultFile
    let size := (Typed.literal value).utf8ByteSize
    list (Typed.literal value ++ rest) file? = .ok (afterLiteral file size value tokens) ∧
      ((Typed.literal value ++ rest).utf8ByteSize < 2 ^ 32 → afterLiteral file size value tokens =
        ⟨.string, value, ⟨⟨0, file⟩, ⟨size, file⟩⟩⟩ :: tokens.map (shifted size)) ∧
      ∀ source other? accepted, list source other? = .ok accepted → ∀ token ∈ accepted, token.kind = .string →
        ∃ inside, token.IsFrom (other?.getD Scanner.defaultFile) 0 source.toList inside ∧
          list (enclosed inside ++ rest) file? =
            .ok (afterLiteral file (enclosed inside).utf8ByteSize token.value tokens) ∧
          list (Typed.literal token.value ++ rest) file? =
            .ok (afterLiteral file (Typed.literal token.value).utf8ByteSize token.value tokens) := by
  refine ⟨list_literal value listed, fun small => ?small, ?accepted⟩
  case small =>
    rw [String.utf8ByteSize_append] at small
    exact afterLiteral_eq listed small value
  case accepted =>
    intro source other? accepted ran token among isString
    obtain ⟨inside, found⟩ := exists_literal ran among isString
    have read := list_enclosed found.shape listed
    rw [← found.value] at read
    exact ⟨inside, found, read, list_literal token.value listed⟩

/-- The text holds all that is escaped, a carriage return and a wide character, and a comment that holds a quote comes
after it. The literal that is read holds an escape that stands for itself before one that does not, and a line break. -/
theorem list_printed_escapes :
    let value := "é\\\"\r\n\\n\t"
    let source := "\"\\q\\n\\\\\n\""
    Typed.literal value = "\"é\\\\\\\"\r\\n\\\\n\\t\"" ∧
      list (Typed.literal value ++ "x // \"") none = .ok
        [⟨.string, value, ⟨⟨0, "shell"⟩, ⟨16, "shell"⟩⟩⟩, ⟨.identifier, "x", ⟨⟨16, "shell"⟩, ⟨17, "shell"⟩⟩⟩,
          endOfInput ⟨22, "shell"⟩] ∧
      ∃ token, list source none = .ok [token, endOfInput ⟨9, "shell"⟩] ∧ token.value = "\\q\n\\\n" ∧
        (list (Typed.literal token.value ++ "x // \"") none).map (List.map Token.value) =
          .ok [token.value, "x", "EOF"] := by
  intro value source
  have listed : list "x // \"" none = .ok
      [⟨.identifier, "x", ⟨⟨0, "shell"⟩, ⟨1, "shell"⟩⟩⟩, endOfInput ⟨6, "shell"⟩] := by cbv
  have ran : list source none = .ok
      [⟨.string, "\\q\n\\\n", ⟨⟨0, "shell"⟩, ⟨9, "shell"⟩⟩⟩, endOfInput ⟨9, "shell"⟩] := by cbv
  obtain ⟨whole, small, accepted⟩ := list_printed value listed
  have size : (Typed.literal value).utf8ByteSize = 16 := by decide
  rw [small (by decide), size] at whole
  obtain ⟨inside, -, -, again⟩ := accepted source none _ ran _ List.mem_cons_self rfl
  refine ⟨by decide, whole, _, ran, rfl, ?_⟩
  rw [again]
  rfl

end Token
end Multiparty
