import Mathlib
import Multiparty.Proofs.LexedBeginnings

/-! Texts with a line break between them are lexed apart. What the second gives stands further on by the size of the
first and the line break. -/

namespace Multiparty

/-! Places further on in a file. -/

def Position.shifted (count : Nat) (place : Position) : Position :=
  ⟨count + place.offset, place.file⟩

def Span.shifted (count : Nat) (span : Span) : Span :=
  ⟨span.start.shifted count, span.stop.shifted count⟩

def Token.shifted (count : Nat) (token : Token) : Token :=
  { token with span := token.span.shifted count }

def Diagnostic.shifted (count : Nat) (diagnostic : Diagnostic) : Diagnostic :=
  { diagnostic with position := diagnostic.position.shifted count }

/-! Places that are all changed in one way. -/

def Token.relocated (move : Position → Position) (token : Token) : Token :=
  { token with span := ⟨move token.span.start, move token.span.stop⟩ }

def Diagnostic.relocated (move : Position → Position) (diagnostic : Diagnostic) : Diagnostic :=
  { diagnostic with position := move diagnostic.position }

namespace Token
open Text

/-- The places of `size` bytes from `other` on are those from `byte` on, changed in that way. -/
def Agree (file : String) (move : Position → Position) (other byte size : Nat) : Prop :=
  ∀ offset ≤ size, Position.ofByte (other + offset) file = move (.ofByte (byte + offset) file)

section
variable {file : String} {move : Position → Position} {byte other : Nat}

theorem Agree.here {size : Nat} (agree : Agree file move other byte size) :
    Position.ofByte other file = move (.ofByte byte file) :=
  agree 0 (Nat.zero_le _)

theorem Agree.beyond {before after : List Char} (agree : Agree file move other byte (byteCount (before ++ after))) :
    Agree file move (other + byteCount before) (byte + byteCount before) (byteCount after) := by
  intro offset within
  rw [Nat.add_assoc, Nat.add_assoc]
  apply agree
  rw [byteCount_append]
  omega

/-- Where a text stands decides nothing but the places of its tokens and of its fault. -/
theorem listFrom_relocated {chars : List Char} (agree : Agree file move other byte (byteCount chars)) :
    listFrom file other chars =
      ((listFrom file byte chars).map (List.map (relocated move))).mapError (Diagnostic.relocated move) := by
  fun_induction listFrom file byte chars generalizing other with
  | case1 byte =>
    rw [listFrom, agree.here]
    rfl
  | case2 byte first rest scanned =>
    rw [listFrom, scanned]
    simp only [agree.here]
    rfl
  | case3 byte first rest tail scanned length =>
    rename_i following ih
    obtain ⟨after, rfl, -⟩ := scan?_reads scanned
    rw [listFrom, scanned]
    simp only [following, length, Lexeme.tail, List.drop_left] at ih ⊢
    exact ih (@Agree.beyond _ _ _ _ (first :: tail) after agree)
  | case4 byte first rest kind value tail scanned length =>
    rename_i following ih
    obtain ⟨after, rfl, -⟩ := scan?_reads scanned
    have later := @Agree.beyond _ _ _ _ (first :: tail) after agree
    rw [listFrom, scanned]
    simp only [following, length, Lexeme.tail, List.drop_left, Span.ofBytes, agree.here, later.here] at ih ⊢
    rw [ih later]
    cases listFrom file (byte + byteCount (first :: tail)) after <;> rfl

end

theorem ofByte_shifted {count byte : Nat} (fits : count + byte < UInt32.size) (file : String) :
    Position.ofByte (count + byte) file = (Position.ofByte byte file).shifted count := by
  rw [ofByte_eq fits, ofByte_eq (by omega)]
  rfl

theorem listFrom_shifted {file : String} {count byte : Nat} {chars : List Char}
    (fits : count + byte + byteCount chars < UInt32.size) :
    listFrom file (count + byte) chars =
      ((listFrom file byte chars).map (List.map (shifted count))).mapError (Diagnostic.shifted count) := by
  refine listFrom_relocated fun offset within => ?_
  rw [Nat.add_assoc]
  exact ofByte_shifted (by omega) file

/-- A line break severs tokens, ends a comment and is white space itself. -/
theorem ReadBefore.lineBreak {file : String} {before : List Char} {tokens : List Token}
    (read : ReadBefore file [] before tokens) (after : List Char) :
    ReadBefore file after (before ++ ['\n']) tokens := by
  refine .skip (read.onto (fun next head => ?_) fun _ _ _ _ _ _ next head => ?_)
    (.blanks (List.cons_ne_nil _ _) (List.forall_mem_singleton.mpr rfl))
  · cases head
    exact ⟨rfl, by decide⟩
  · cases head
    rfl

theorem list_append_lineBreak {first second : String} {file? : Option String} {tokens : List Token}
    (small : (first ++ "\n" ++ second).utf8ByteSize < 2 ^ 32) (listed : list first file? = .ok tokens) :
    ∃ body, tokens = body ++ [endOfInput ⟨first.utf8ByteSize, file?.getD Scanner.defaultFile⟩] ∧
      list (first ++ "\n" ++ second) file? =
        ((list second file?).map fun later =>
          body ++ later.map (shifted (first.utf8ByteSize + 1))).mapError
            (Diagnostic.shifted (first.utf8ByteSize + 1)) := by
  simp only [← byteCount_toList, String.toList_append] at small
  obtain ⟨body, rfl, read⟩ := readBefore_of_list (by
    rw [← byteCount_toList]
    simp only [byteCount_append] at small
    omega) listed
  have size : byteCount (first.toList ++ ['\n']) = first.utf8ByteSize + 1 + 0 := by
    rw [byteCount_append, byteCount_toList]
    rfl
  have whole := (read.lineBreak second.toList).listFrom_eq small
  rw [size, listFrom_shifted (by
    rw [← size, ← byteCount_append]
    exact small)] at whole
  refine ⟨body, rfl, ?_⟩
  rw [list, list, String.toList_append, String.toList_append]
  refine whole.trans ?_
  cases listFrom (file?.getD Scanner.defaultFile) 0 second.toList <;> rfl

/-- A text that the lexer accepts, a line break and another text give the tokens of the first, but for its end, and
those of the second further on. If the second is refused, so is the whole, at the same character. -/
theorem list_lineBreak {first second : String} {file? : Option String} {tokens : List Token}
    (small : (first ++ "\n" ++ second).utf8ByteSize < 2 ^ 32) (listed : list first file? = .ok tokens) :
    let count := first.utf8ByteSize + 1
    ((∃ whole, list (first ++ "\n" ++ second) file? = .ok whole) ↔ ∃ later, list second file? = .ok later) ∧
      (∀ later, list second file? = .ok later → ∃ body,
        tokens = body ++ [endOfInput ⟨first.utf8ByteSize, file?.getD Scanner.defaultFile⟩] ∧
          list (first ++ "\n" ++ second) file? = .ok (body ++ later.map (shifted count))) ∧
      ∀ diagnostic, list second file? = .error diagnostic → ∃ char place,
        diagnostic = ⟨.unrecognised (.singleton char), ⟨place, file?.getD Scanner.defaultFile⟩⟩ ∧
          list (first ++ "\n" ++ second) file? =
            .error ⟨.unrecognised (.singleton char), ⟨count + place, file?.getD Scanner.defaultFile⟩⟩ := by
  intro count
  obtain ⟨body, same, whole⟩ := list_append_lineBreak small listed
  refine ⟨?accepted, ?tokens, ?refused⟩
  case accepted =>
    rw [whole]
    cases list second file? <;> simp [Except.map, Except.mapError]
  case tokens =>
    intro later ran
    refine ⟨body, same, ?_⟩
    rw [whole, ran]
    rfl
  case refused =>
    intro diagnostic refused
    obtain ⟨before, char, after, _, -, -, -, rfl⟩ := list_eq_error (by
      simp only [String.utf8ByteSize_append] at small
      omega) refused
    refine ⟨char, _, rfl, ?_⟩
    rw [whole, refused]
    rfl

/-- The first text ends with a comment that holds a quote. The second begins with white space, and its literal goes
over a line. -/
theorem list_lineBreak_comment :
    let first := "x // \"é"
    let second := "\t=\"a\nb\""
    (first ++ "\n" ++ second).utf8ByteSize < 2 ^ 32 ∧ ∃ tokens later body,
      list first none = .ok tokens ∧ list second none = .ok later ∧
      (later.map fun token => (token.kind, token.value, token.span.start.offset)) =
        [(.assignment, "=", 1), (.string, "a\nb", 2), (.endOfInput, "EOF", 7)] ∧
      tokens = body ++ [endOfInput ⟨8, "shell"⟩] ∧
      list (first ++ "\n" ++ second) none = .ok (body ++ later.map (shifted 9)) := by
  intro first second
  have small : (first ++ "\n" ++ second).utf8ByteSize < 2 ^ 32 := by decide
  have listed : list first none = .ok
      [⟨.identifier, "x", ⟨⟨0, "shell"⟩, ⟨1, "shell"⟩⟩⟩, endOfInput ⟨8, "shell"⟩] := by cbv
  obtain ⟨later, ran, seen⟩ := map_eq_ok (show (list second none).map (List.map fun token =>
      (token.kind, token.value, token.span.start.offset)) = .ok
        [(.assignment, "=", 1), (.string, "a\nb", 2), (.endOfInput, "EOF", 7)] by cbv)
  obtain ⟨body, ended, whole⟩ := (list_lineBreak small listed).2.1 later ran
  exact ⟨small, _, later, body, listed, ran, seen, ended, whole⟩

end Token
end Multiparty
