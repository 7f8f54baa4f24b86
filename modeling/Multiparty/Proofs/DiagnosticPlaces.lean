import Multiparty.Proofs.LexedBeginnings
import Multiparty.Proofs.ProgramChecks
import Multiparty.Proofs.RoundTrip
import Multiparty.Proofs.Tiling
import Multiparty.Proofs.TokenPlaces

/-! Where diagnostics stand. The lexer reports the character that it cannot read, the parser a token of the source,
and the type system the start of a token within a part. -/

namespace Multiparty

namespace Token
open Text

section
variable {file : String} {source : List Char} {start : Position} {tokens : List Token}

theorem Tiling.start_file (tiling : Tiling file source start tokens) {token : Token} (among : token ∈ tokens) :
    token.span.start.file = file := by
  by_cases last : token.kind = .endOfInput
  · obtain ⟨body, rfl, further⟩ := tiling.ended
    rcases List.mem_append.mp among with earlier | final
    · exact absurd last (further token earlier)
    · rw [List.mem_singleton.mp final]
      rfl
  · obtain ⟨-, text, after, ⟨before, -, covers⟩, -⟩ := tiling.spelled token among last
    rw [covers]

/-- Only the first token can start where the text does. -/
theorem Tiling.offset_pos {first token : Token} {rest : List Token}
    (tiling : Tiling file source start (first :: rest)) (inside : first.kind ≠ .endOfInput)
    (among : token ∈ rest) : 0 < token.span.start.offset := by
  have nonempty := (tiling.spelled first List.mem_cons_self inside).1
  have ordered := tiling.ordered
  rw [List.map_cons, List.pairwise_cons, List.pairwise_cons] at ordered
  have further := ordered.2.1 _ (List.mem_map_of_mem among)
  omega

end

end Token

/-- A program begins with the word that begins a part. -/
theorem Parser.declareWord_of_program {table : Table} {cursor later : Cursor} {tree : Program}
    (read : program table cursor = .done tree later) : cursor.kind = .declareWord := by
  by_contra elsewhere
  have stands (part : Token.Kind) : declares part cursor = false := by simp [declares, elsewhere]
  simp [program, Bind.bind, position, many, Cursor.fuel, manyWithin, require, stands] at read

open Token Typing

theorem parseTokens_eq_error {file : String} {tokens : List Token} {diagnostic : Diagnostic}
    (refused : parseTokens file tokens = .error diagnostic) :
    ∃ stopped, Parser.program .standard (.ofTokens file tokens) = .failed diagnostic stopped := by
  unfold parseTokens at refused
  split at refused
  next => cases refused
  next failure stopped settled =>
    cases refused
    exact ⟨stopped, settled⟩
  next exhausted => exact absurd exhausted (Parser.program_settles file tokens)

section
variable {file : String} {tokens : List Token} {body : List Token} {last : Token}

/-- A stream that ends with an end-of-input token is read as it is. -/
theorem program_anchored (ended : last.kind = .endOfInput) :
    (Parser.program .standard (.ofTokens file (body ++ [last]))).Anchored (body ++ [last])
      fun program => Placed (body ++ [last]) program.innerSpans := by
  refine Parser.program_reads Table.standard_inner ?_
  rw [Cursor.Within, Cursor.ofTokens_stream file ended]
  exact List.Subset.refl _

/-- What the parser reports is a token of the stream. -/
theorem blames_of_parseTokens {diagnostic : Diagnostic} (ended : last.kind = .endOfInput)
    (refused : parseTokens file (body ++ [last]) = .error diagnostic) :
    ∃ token ∈ body ++ [last], diagnostic.Blames token := by
  obtain ⟨stopped, ran⟩ := parseTokens_eq_error refused
  have anchored := @program_anchored file body last ended
  rw [ran] at anchored
  cases anchored with
  | failed among blames => exact ⟨_, among, blames⟩

theorem placed_of_parseTokens {program : Program} (ended : last.kind = .endOfInput)
    (ran : parseTokens file (body ++ [last]) = .ok program) :
    Placed (body ++ [last]) program.innerSpans := by
  obtain ⟨later, read⟩ := parseTokens_eq_ok.mp ran
  have anchored := @program_anchored file body last ended
  rw [read] at anchored
  cases anchored with
  | done _ placed => exact placed

/-- A program begins with the word that begins a part, and nothing within a part stands before it. -/
theorem Token.Tiling.offset_pos_of_parseTokens {source : List Char} {start : Position} {program : Program}
    (tiling : Tiling file source start tokens) (parsed : parseTokens file tokens = .ok program) {token : Token}
    (among : token ∈ tokens) (inner : token.kind.Inner) : 0 < token.span.start.offset := by
  obtain ⟨first, rest, rfl⟩ := tiling.exists_cons
  obtain ⟨later, read⟩ := parseTokens_eq_ok.mp parsed
  have begins : first.kind = .declareWord := Parser.declareWord_of_program read
  rcases List.mem_cons.mp among with rfl | further
  · exact absurd begins inner.2
  · exact tiling.offset_pos (by simp [begins]) further

end

/-- How the cause and the position of a diagnostic fit the source. -/
structure Located (source file : String) (diagnostic : Diagnostic) : Prop where
  named : diagnostic.position.file = file
  /-- The lexer refuses the source. -/
  lexical : (∃ text, diagnostic.cause = .unrecognised text) ↔ ∃ other, list source (some file) = .error other
  /-- The lexer accepts the source, and the parser refuses its tokens. -/
  syntactic : diagnostic.cause.token?.isSome ↔
    ∃ tokens, list source (some file) = .ok tokens ∧ ∃ other, parseTokens file tokens = .error other
  /-- Both accept. -/
  semantic : (∃ violated, diagnostic.cause = .violation violated) ↔
    ∃ tokens, list source (some file) = .ok tokens ∧ ∃ program, parseTokens file tokens = .ok program
  unrecognised : ∀ text, diagnostic.cause = .unrecognised text → ∃ before char after,
    source.toList = before ++ char :: after ∧ diagnostic.position.offset = Text.byteCount before ∧
      text = .singleton char
  unexpected : ∀ quoted, diagnostic.cause.token? = some quoted → ∃ tokens,
    list source (some file) = .ok tokens ∧ ∃ token ∈ tokens, token.value = quoted ∧
      token.span.start = diagnostic.position
  violating : ∀ violated, diagnostic.cause = .violation violated → ∃ tokens,
    list source (some file) = .ok tokens ∧ ∃ token ∈ tokens, token.kind ≠ .endOfInput ∧
      token.span.start = diagnostic.position
  registered : (∀ part, diagnostic ≠ unregisteredPart part) ∧ ∀ scope, diagnostic ≠ unregisteredFunction scope

section
variable {options : Options} {source file : String} {diagnostic : Diagnostic} {tokens : List Token}

theorem unregistered_ne
    (real : (∀ violated, diagnostic.cause ≠ .violation violated) ∨ diagnostic.position ≠ .nowhere) :
    (∀ part, diagnostic ≠ unregisteredPart part) ∧ ∀ scope, diagnostic ≠ unregisteredFunction scope := by
  constructor
  · rintro part rfl
    cases part <;> exact real.elim (fun other => other _ rfl) fun place => place rfl
  · rintro scope rfl
    exact real.elim (fun other => other _ rfl) fun place => place rfl

theorem located_of_list (small : source.utf8ByteSize < 2 ^ 32)
    (refused : list source (some file) = .error diagnostic) : Located source file diagnostic := by
  obtain ⟨before, char, after, _, whole, -, -, rfl⟩ := list_eq_error small refused
  exact {
    named := rfl
    lexical := by simp [refused]
    syntactic := by simp [refused, Cause.token?]
    semantic := by simp [refused]
    unrecognised := fun _ same => ⟨before, char, after, whole, rfl, (Cause.unrecognised.inj same).symm⟩
    unexpected := nofun
    violating := nofun
    registered := unregistered_ne (.inl nofun) }

theorem located_of_parseTokens (small : source.utf8ByteSize < 2 ^ 32)
    (listed : list source (some file) = .ok tokens) (refused : parseTokens file tokens = .error diagnostic) :
    Located source file diagnostic := by
  have tiling : Tiling file source.toList ⟨0, file⟩ tokens := tiling_of_list small listed
  obtain ⟨body, rfl, -⟩ := tiling.ended
  obtain ⟨token, among, quoted, place⟩ := blames_of_parseTokens rfl refused
  have other : ∀ cause, diagnostic.cause = cause → cause.token? = some token.value := by
    rintro _ rfl
    exact quoted
  exact {
    named := by rw [place, tiling.start_file among]
    lexical := ⟨fun ⟨_, same⟩ => (nomatch other _ same), fun ⟨_, same⟩ => nomatch listed.symm.trans same⟩
    syntactic := by simp [listed, quoted, refused]
    semantic := by
      refine ⟨fun ⟨_, same⟩ => (nomatch other _ same), fun ⟨_, same, _, ran⟩ => ?_⟩
      cases listed.symm.trans same
      cases refused.symm.trans ran
    unrecognised := fun _ same => nomatch other _ same
    unexpected := fun _ same =>
      ⟨_, listed, token, among, Option.some.inj (quoted.symm.trans same), place.symm⟩
    violating := fun _ same => nomatch other _ same
    registered := unregistered_ne (.inl fun _ same => nomatch other _ same) }

theorem located_of_checkProgram {program : Program} (small : source.utf8ByteSize < 2 ^ 32)
    (listed : list source (some file) = .ok tokens) (parsed : parseTokens file tokens = .ok program)
    (refused : checkProgram options program = .error diagnostic) : Located source file diagnostic := by
  have tiling : Tiling file source.toList ⟨0, file⟩ tokens := tiling_of_list small listed
  obtain ⟨violated, place, rfl, broken⟩ := breaks_of_checkProgram refused
  obtain ⟨token, among, inner, rfl⟩ : Starts tokens place := by
    obtain ⟨body, rfl, -⟩ := tiling.ended
    obtain ⟨span, within, rfl⟩ := broken.startsAmong
    exact placed_of_parseTokens rfl parsed span within
  -- the word that begins the part is before the fault, so that the place is not the one of no file
  have inText := tiling.offset_pos_of_parseTokens parsed among inner
  exact {
    named := tiling.start_file among
    lexical := by simp [listed, Diagnostic.violation]
    syntactic := by simp [listed, parsed, Diagnostic.violation, Cause.token?]
    semantic := by simp [listed, parsed, Diagnostic.violation]
    unrecognised := nofun
    unexpected := nofun
    violating := fun _ _ => ⟨tokens, listed, token, among, inner.1, rfl⟩
    registered := unregistered_ne (.inr fun same => inText.ne' (congrArg Position.offset same)) }

end

/-- Every diagnostic stands at what it is about. -/
theorem located_of_checkSource {options : Options} {source file : String} {diagnostic : Diagnostic}
    (small : source.utf8ByteSize < 2 ^ 32) (refused : checkSource options source file = .error diagnostic) :
    Located source file diagnostic := by
  unfold checkSource parseSource at refused
  cases listed : list source (some file) with
  | error other =>
    rw [listed] at refused
    cases refused
    exact located_of_list small listed
  | ok tokens =>
    rw [listed] at refused
    cases parsed : parseTokens file tokens with
    | error other =>
      simp only [Except.bind, parsed] at refused
      cases refused
      exact located_of_parseTokens small listed parsed
    | ok program =>
      simp only [Except.bind, parsed] at refused
      exact located_of_checkProgram small listed parsed refused

/-- A variable that is not declared. -/
theorem located_of_checkSource_undeclared :
    let source := "declare server s \x7b function void f() \x7b x; \x7d \x7d"
    source.utf8ByteSize < 2 ^ 32 ∧
      checkSource ⟨false⟩ source "main" = .error (.violation (.undefinedVariable "x") ⟨39, "main"⟩) ∧
      Located source "main" (.violation (.undefinedVariable "x") ⟨39, "main"⟩) := by
  have refused : checkSource ⟨false⟩ "declare server s \x7b function void f() \x7b x; \x7d \x7d" "main" =
      .error (.violation (.undefinedVariable "x") ⟨39, "main"⟩) := by cbv
  exact ⟨by decide, refused, located_of_checkSource (by decide) refused⟩

end Multiparty
