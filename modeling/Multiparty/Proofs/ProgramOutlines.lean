import Mathlib
import Multiparty.Proofs.RoundTrip
import Multiparty.Proofs.StatementOutlines
import Multiparty.Proofs.Tiling

/-! The spans of a program form a tree. Each is made of whole tokens of the source, and what a node holds lies within
it, one after the other. -/

namespace Multiparty

open Token

namespace Parser
variable {file : String} {stream : List Token} {index : Nat} {cursor later : Cursor}

theorem tunnel_passes : tunnel.Passes file stream inside Tunnel.span Tunnel.outlines := by
  intro cursor index value later stands within ran
  simp only [tunnel, bind_eq_done, advance_eq_done, expect_eq_done, spanFrom_eq_done, pure_eq_done] at ran
  obtain ⟨_, _, ⟨rfl, rfl⟩, _, _, ⟨of, rfl, rfl⟩, binder, _, ran, _, _, ⟨ending, rfl, rfl⟩, _, _, ⟨rfl, rfl⟩, rfl,
    rfl⟩ := ran
  obtain ⟨next, there, row, fit⟩ :=
    binder_passes _ _ _ _ ((stands.onward within).taken of rfl) trivial ran
  have order := row.le
  have held : Row stream (next + 1) index [binder.span] := row.weaken (by omega) (Nat.le_succ next)
  exact stands.encloses (there.taken ending rfl) (by omega) (List.forall_mem_singleton.mpr held) fit

theorem group_passes : group.Passes file stream inside Group.span Group.outlines := by
  intro cursor index value later stands within ran
  simp only [group, bind_eq_done, advance_eq_done, expect_eq_done, spanFrom_eq_done, pure_eq_done] at ran
  obtain ⟨_, _, ⟨rfl, rfl⟩, _, _, ⟨of, rfl, rfl⟩, client, _, ranClient, name, _, ranName, _, _, ⟨ending, rfl, rfl⟩,
    _, _, ⟨rfl, rfl⟩, rfl, rfl⟩ := ran
  obtain ⟨after, grouped⟩ := identifier_stretches ((stands.onward within).taken of rfl) ranClient
  obtain ⟨there, named⟩ := identifier_stretches after ranName
  have held : Row stream (index + 5) index [client.span, name.span] :=
    .cons (by omega) grouped (named.row.weaken (Nat.le_refl _) (by omega))
  refine stands.encloses (there.taken ending rfl) (by omega) (List.forall_mem_singleton.mpr held) ?_
  exact fit_cons.mpr ⟨Outline.fits_of_stretches grouped, named.fit⟩

section
variable {α β : Type} {left : α → Span} {right : β → Span} {leftOutlines : α → List Outline}
  {rightOutlines : β → List Outline} {member : Parser (α ⊕ β)}

/-- The members of one sort are some of all members, in their order. -/
theorem getLeft?_sublist (items : List (α ⊕ β)) :
    ((items.filterMap Sum.getLeft?).map left).Sublist (items.map (Sum.elim left right)) := by
  induction items with
  | nil => exact .slnil
  | cons item rest ih =>
    cases item with
    | inl value => exact ih.cons_cons _
    | inr value => exact ih.cons _

theorem getRight?_sublist (items : List (α ⊕ β)) :
    ((items.filterMap Sum.getRight?).map right).Sublist (items.map (Sum.elim left right)) := by
  induction items with
  | nil => exact .slnil
  | cons item rest ih =>
    cases item with
    | inl value => exact ih.cons _
    | inr value => exact ih.cons_cons _

/-- Members in braces lie behind the opening one, those of each sort in a row. -/
theorem members_passes
    (passes : member.Passes file stream anywhere (Sum.elim left right) (Sum.elim leftOutlines rightOutlines))
    {values : List α × List β} (stands : cursor.Stands file stream index)
    (ran : members member cursor = .done values later) :
    ∃ next, later.Stands file stream next ∧ Row stream next (index + 1) (values.1.map left) ∧
      Row stream next (index + 1) (values.2.map right) ∧
      Fit stream (values.1.flatMap leftOutlines ++ values.2.flatMap rightOutlines) := by
  simp only [members, bind_eq_done, expect_eq_done, pure_eq_done] at ran
  obtain ⟨_, _, ⟨opening, rfl, rfl⟩, items, _, ran, _, _, ⟨closing, rfl, rfl⟩, rfl, rfl⟩ := ran
  have opened := stands.taken opening rfl
  obtain ⟨next, there, row, fit⟩ := many_passes (fun _ _ _ _ stands _ => passes _ _ _ _ stands trivial) opened ran
  have all := row.weaken (Nat.le_refl _) (Nat.le_succ next)
  refine ⟨next + 1, there.taken closing rfl, all.sublist (getLeft?_sublist items),
    all.sublist (getRight?_sublist items), ?_⟩
  rw [fit_append, fit_flatMap, fit_flatMap]
  exact forall_sorted (fit_flatMap.mp fit)

end

/-- A part holds its name, behind two words, and two sorts of members, behind a brace. -/
theorem part_encloses {next : Nat} {name : Identifier} {before after : List Span} {outlines : List Outline}
    (stands : cursor.Stands file stream index) (there : later.Stands file stream next)
    (named : name.span.Stretches stream (index + 2) (index + 3)) (beforeRow : Row stream next (index + 4) before)
    (afterRow : Row stream next (index + 4) after) (fit : Fit stream outlines) :
    later.Passed file stream index [later.spanFrom cursor.position]
      (⟨later.spanFrom cursor.position, [name.span :: before, name.span :: after]⟩ :: name.outline :: outlines) := by
  have order := beforeRow.le
  refine stands.encloses there (by omega) ?_ (fit_cons.mpr ⟨Outline.fits_of_stretches named, fit⟩)
  rw [List.forall_mem_cons, List.forall_mem_singleton]
  constructor
  · exact .cons (by omega) named (beforeRow.weaken (Nat.le_succ _) (Nat.le_refl next))
  · exact .cons (by omega) named (afterRow.weaken (Nat.le_succ _) (Nat.le_refl next))

section
variable {table : Table} (apart : table.Inner)
include apart

theorem function_passes : (function table).Passes file stream anywhere Function.span Function.outlines := by
  intro cursor index value later stands _ ran
  simp only [function, bind_eq_done, expect_eq_done, type_eq_done, spanFrom_eq_done, pure_eq_done] at ran
  obtain ⟨_, _, ⟨found, rfl, rfl⟩, returned, _, ⟨known, rfl⟩, name, _, ranName, parameters, _, ranParameters, body, _,
    ranBody, _, _, ⟨rfl, rfl⟩, rfl, rfl⟩ := ran
  have word := stands.taken found rfl
  obtain ⟨after, named⟩ := identifier_stretches (word.onward (isMark_of_type? known).2) ranName
  obtain ⟨middle, between, parameterRow, parameterFit⟩ := commaSeparated_passes binder_passes after ranParameters
  obtain ⟨next, there, bodyRow, bodyFit⟩ := statements_passes (statement_passes apart) between ranBody
  have parts := parameterRow.append (bodyRow.weaken (Nat.le_succ middle) (Nat.le_refl next))
  have order := parts.le
  have held : Row stream next index
      (name.span :: (parameters.map Binder.span ++ body.map Stmt.span)) := .cons (by omega) named parts
  refine stands.encloses there (by omega) (List.forall_mem_singleton.mpr held) ?_
  rw [fit_cons, fit_append]
  exact ⟨Outline.fits_of_stretches named, parameterFit, bodyFit⟩

theorem clientMember_passes : (clientMember table).Passes file stream anywhere
    (Sum.elim Tunnel.span Function.span) (Sum.elim Tunnel.outlines Function.outlines) := by
  intro cursor index value later stands _ ran
  simp only [clientMember, bind_eq_done, kind_eq_done] at ran
  obtain ⟨seen, _, ⟨found, rfl⟩, ran⟩ := ran
  split at ran
  next =>
    obtain ⟨tunnel, _, ran, rfl, rfl⟩ := bind_eq_done.mp ran
    exact tunnel_passes _ _ _ _ stands (Cursor.inside_of_kind found rfl) ran
  next =>
    obtain ⟨function, _, ran, rfl, rfl⟩ := bind_eq_done.mp ran
    exact function_passes apart _ _ _ _ stands trivial ran
  next => cases ran

theorem serverMember_passes : (serverMember table).Passes file stream anywhere
    (Sum.elim Group.span Function.span) (Sum.elim Group.outlines Function.outlines) := by
  intro cursor index value later stands _ ran
  simp only [serverMember, bind_eq_done, kind_eq_done] at ran
  obtain ⟨seen, _, ⟨found, rfl⟩, ran⟩ := ran
  split at ran
  next =>
    obtain ⟨group, _, ran, rfl, rfl⟩ := bind_eq_done.mp ran
    exact group_passes _ _ _ _ stands (Cursor.inside_of_kind found rfl) ran
  next =>
    obtain ⟨function, _, ran, rfl, rfl⟩ := bind_eq_done.mp ran
    exact function_passes apart _ _ _ _ stands trivial ran
  next => cases ran

theorem client_passes {start : Cursor → Prop} :
    (client table).Passes file stream start Client.span Client.outlines := by
  intro cursor index value later stands _ ran
  simp only [client, bind_eq_done, expect_eq_done, spanFrom_eq_done, pure_eq_done] at ran
  obtain ⟨_, _, ⟨declared, rfl, rfl⟩, _, _, ⟨part, rfl, rfl⟩, name, _, ranName, ⟨tunnels, functions⟩, _, ran, _, _,
    ⟨rfl, rfl⟩, rfl, rfl⟩ := ran
  obtain ⟨after, named⟩ := identifier_stretches ((stands.taken declared rfl).taken part rfl) ranName
  obtain ⟨next, there, tunnelRow, functionRow, fit⟩ := members_passes (clientMember_passes apart) after ran
  exact part_encloses stands there named tunnelRow functionRow fit

theorem server_passes : (server table).Passes file stream anywhere Server.span Server.outlines := by
  intro cursor index value later stands _ ran
  simp only [server, bind_eq_done, expect_eq_done, spanFrom_eq_done, pure_eq_done] at ran
  obtain ⟨_, _, ⟨declared, rfl, rfl⟩, _, _, ⟨part, rfl, rfl⟩, name, _, ranName, ⟨groups, functions⟩, _, ran, _, _,
    ⟨rfl, rfl⟩, rfl, rfl⟩ := ran
  obtain ⟨after, named⟩ := identifier_stretches ((stands.taken declared rfl).taken part rfl) ranName
  obtain ⟨next, there, groupRow, functionRow, fit⟩ := members_passes (serverMember_passes apart) after ran
  exact part_encloses stands there named groupRow functionRow fit

/-- The server is at least the word that begins it, so a program is not empty. -/
theorem program_fits {value : Program} (stands : cursor.Stands file stream index)
    (ran : program table cursor = .done value later) : Fit stream value.outlines := by
  simp only [program, bind_eq_done, position_eq_done, require_eq_done, spanFrom_eq_done, pure_eq_done] at ran
  obtain ⟨_, _, ⟨rfl, rfl⟩, clients, _, ranClients, _, _, ⟨_, rfl⟩, server, _, ranServer, _, _, ⟨_, rfl⟩, _, _,
    ⟨rfl, rfl⟩, rfl, rfl⟩ := ran
  obtain ⟨middle, between, clientRow, clientFit⟩ := many_passes (client_passes apart) stands ranClients
  obtain ⟨next, there, serverRow, serverFit⟩ := server_passes apart _ _ _ _ between trivial ranServer
  obtain ⟨first, stop, after, stretches, before⟩ := serverRow.exists_stretches List.mem_cons_self
  have order := clientRow.le
  have proper := stretches.proper
  obtain ⟨_, _, _, fit⟩ := stands.encloses there (by omega)
    (List.forall_mem_singleton.mpr (clientRow.append serverRow)) (fit_append.mpr ⟨clientFit, serverFit⟩)
  exact fit

end

end Parser

/-- The span is made of whole tokens of the file, at least one, and the spans of the children lie within it. Those in
one row come one after the other. -/
structure Outline.Nested (file : String) (tokens : List Token) (outline : Outline) : Prop where
  inFile : outline.span.start.file = file ∧ outline.span.stop.file = file
  begins : ∃ token ∈ tokens, token.kind ≠ .endOfInput ∧ token.span.start = outline.span.start
  ends : ∃ token ∈ tokens, token.kind ≠ .endOfInput ∧ token.span.stop = outline.span.stop
  proper : outline.span.start.offset < outline.span.stop.offset
  within : ∀ row ∈ outline.rows, ∀ child ∈ row,
    outline.span.start.offset ≤ child.start.offset ∧ child.stop.offset ≤ outline.span.stop.offset
  ordered : ∀ row ∈ outline.rows, row.Pairwise fun first second => first.stop.offset ≤ second.start.offset

namespace Token

section
variable {file : String} {source : List Char} {start : Position} {tokens : List Token} {first second : Nat}
  {token other : Token}

/-- Before the last one there are tokens with a text. -/
theorem Tiling.inside (tiling : Tiling file source start tokens) (found : tokens[first]? = some token)
    (early : first + 1 < tokens.length) : token.kind ≠ .endOfInput := by
  obtain ⟨body, rfl, further⟩ := tiling.ended
  rw [List.length_append, List.length_singleton] at early
  rw [List.getElem?_append_left (by omega)] at found
  exact further token (List.mem_of_getElem? found)

theorem Tiling.proper (tiling : Tiling file source start tokens) (found : tokens[first]? = some token)
    (early : first + 1 < tokens.length) : token.span.start.offset < token.span.stop.offset :=
  (tiling.spelled token (List.mem_of_getElem? found) (tiling.inside found early)).1

theorem Tiling.in_order (tiling : Tiling file source start tokens) (found : tokens[first]? = some token)
    (foundOther : tokens[second]? = some other) (order : first < second) :
    token.span.stop.offset ≤ other.span.start.offset := by
  have pairwise := List.pairwise_map.mp (List.pairwise_cons.mp tiling.ordered).2
  obtain ⟨inside, rfl⟩ := List.getElem?_eq_some_iff.mp found
  obtain ⟨insideOther, rfl⟩ := List.getElem?_eq_some_iff.mp foundOther
  exact List.pairwise_iff_getElem.mp pairwise first second inside insideOther order

theorem Tiling.start_le (tiling : Tiling file source start tokens) (found : tokens[first]? = some token)
    (foundOther : tokens[second]? = some other) (order : first ≤ second) (early : first + 1 < tokens.length) :
    token.span.start.offset ≤ other.span.start.offset := by
  rcases Nat.eq_or_lt_of_le order with rfl | before
  · rw [Option.some.inj (found.symm.trans foundOther)]
  · exact Nat.le_trans (Nat.le_of_lt (tiling.proper found early)) (tiling.in_order found foundOther before)

theorem Tiling.stop_le (tiling : Tiling file source start tokens) (found : tokens[first]? = some token)
    (foundOther : tokens[second]? = some other) (order : first ≤ second) (early : second + 1 < tokens.length) :
    token.span.stop.offset ≤ other.span.stop.offset := by
  rcases Nat.eq_or_lt_of_le order with rfl | before
  · rw [Option.some.inj (found.symm.trans foundOther)]
  · exact Nat.le_trans (tiling.in_order found foundOther before) (Nat.le_of_lt (tiling.proper foundOther early))

end

end Token

section
variable {file : String} {source : List Char} {start : Position} {tokens : List Token}
  (tiling : Tiling file source start tokens) {low high first stop next last : Nat} {span other : Span}
  {spans : List Span}
include tiling

theorem Span.Stretches.start_le (stretches : span.Stretches tokens first stop)
    (stretchesOther : other.Stretches tokens next last) (order : first ≤ next) :
    span.start.offset ≤ other.start.offset := by
  obtain ⟨proper, inside, ⟨token, found, begins⟩, -⟩ := stretches
  obtain ⟨-, -, ⟨tokenOther, foundOther, beginsOther⟩, -⟩ := stretchesOther
  rw [← begins, ← beginsOther]
  exact tiling.start_le found foundOther order (by omega)

theorem Span.Stretches.stop_le (stretches : span.Stretches tokens first stop)
    (stretchesOther : other.Stretches tokens next last) (order : stop ≤ last) :
    span.stop.offset ≤ other.stop.offset := by
  obtain ⟨-, -, -, ⟨token, found, ends⟩⟩ := stretches
  obtain ⟨proper, inside, -, ⟨tokenOther, foundOther, endsOther⟩⟩ := stretchesOther
  rw [← ends, ← endsOther]
  exact tiling.stop_le found foundOther (by omega) (by omega)

theorem Span.Stretches.in_order (stretches : span.Stretches tokens first stop)
    (stretchesOther : other.Stretches tokens next last) (order : stop ≤ next) :
    span.stop.offset ≤ other.start.offset := by
  obtain ⟨proper, -, -, ⟨token, found, ends⟩⟩ := stretches
  obtain ⟨-, -, ⟨tokenOther, foundOther, beginsOther⟩, -⟩ := stretchesOther
  rw [← ends, ← beginsOther]
  exact tiling.in_order found foundOther (by omega)

theorem Row.ordered (row : Row tokens high low spans) :
    spans.Pairwise fun first second => first.stop.offset ≤ second.start.offset := by
  induction row with
  | nil => exact .nil
  | cons _ stretches rest ih =>
    refine .cons ?_ ih
    intro later among
    obtain ⟨first, stop, after, further, -⟩ := rest.exists_stretches among
    exact stretches.in_order tiling further after

theorem Outline.Fits.nested {outline : Outline} (fits : outline.Fits tokens) : outline.Nested file tokens := by
  obtain ⟨first, stop, stretches, rows⟩ := fits
  obtain ⟨proper, inside, ⟨token, found, begins⟩, ⟨final, foundFinal, ends⟩⟩ := id stretches
  have kind := tiling.inside found (by omega)
  have kindFinal := tiling.inside foundFinal (by omega)
  have among := List.mem_of_getElem? found
  have amongFinal := List.mem_of_getElem? foundFinal
  obtain ⟨-, _, _, ⟨_, _, places⟩, _⟩ := tiling.spelled token among kind
  obtain ⟨-, _, _, ⟨_, _, placesFinal⟩, _⟩ := tiling.spelled final amongFinal kindFinal
  refine ⟨?inFile, ⟨token, among, kind, begins⟩, ⟨final, amongFinal, kindFinal, ends⟩, ?proper, ?within, ?ordered⟩
  case inFile =>
    rw [← begins, ← ends, places, placesFinal]
    exact ⟨rfl, rfl⟩
  case proper =>
    rw [← begins, ← ends]
    exact Nat.lt_of_lt_of_le (tiling.proper found (by omega)) (tiling.stop_le found foundFinal (by omega) (by omega))
  case within =>
    intro row listed child held
    obtain ⟨second, last, after, stretchesChild, before⟩ := (rows row listed).exists_stretches held
    exact ⟨stretches.start_le tiling stretchesChild after, stretchesChild.stop_le tiling stretches before⟩
  case ordered =>
    intro row listed
    exact (rows row listed).ordered tiling

end

/-- The spans of a program form a tree. -/
theorem nested_of_parseSource {source file : String} {program : Program} (small : source.utf8ByteSize < 2 ^ 32)
    (parsed : parseSource source file = .ok program) :
    ∃ tokens, Token.list source (some file) = .ok tokens ∧
      ∀ outline ∈ program.outlines, outline.Nested file tokens := by
  obtain ⟨tokens, listed, read⟩ := parseSource_eq_ok.mp parsed
  obtain ⟨later, ran⟩ := parseTokens_eq_ok.mp read
  have tiling : Tiling file source.toList ⟨0, file⟩ tokens := tiling_of_list small listed
  have whole : Cursor.stream file tokens = tokens := by
    obtain ⟨body, rfl, -⟩ := tiling.ended
    rw [Cursor.stream, if_pos (by simp [endOfInput])]
  have stands := Cursor.ofTokens_stands file tokens
  rw [whole] at stands
  refine ⟨tokens, listed, ?_⟩
  intro outline among
  exact (Parser.program_fits Table.standard_inner stands ran outline among).nested tiling

/-- The sum begins within the parentheses, at the 40th byte, and what holds it begins before them. -/
theorem nested_of_parseSource_grouping :
    let source := "declare server s \x7b function void f() \x7b (1) + g(2, x); \x7d \x7d"
    source.utf8ByteSize < 2 ^ 32 ∧ ∃ program, parseSource source "main" = .ok program ∧
      (program.outlines.map fun outline => (outline.span.start.offset, outline.span.stop.offset)) =
        [(0, 57), (0, 57), (15, 16), (19, 55), (33, 34), (39, 53), (40, 52), (40, 41), (45, 52), (45, 52), (45, 46),
          (47, 48), (50, 51)] ∧
      ∃ tokens, Token.list source (some "main") = .ok tokens ∧
        ∀ outline ∈ program.outlines, outline.Nested "main" tokens := by
  have small : "declare server s \x7b function void f() \x7b (1) + g(2, x); \x7d \x7d".utf8ByteSize < 2 ^ 32 := by
    decide
  obtain ⟨program, parsed, seen⟩ := map_eq_ok (show
    (parseSource "declare server s \x7b function void f() \x7b (1) + g(2, x); \x7d \x7d" "main").map (fun program =>
      program.outlines.map fun outline => (outline.span.start.offset, outline.span.stop.offset)) = .ok
        [(0, 57), (0, 57), (15, 16), (19, 55), (33, 34), (39, 53), (40, 52), (40, 41), (45, 52), (45, 52), (45, 46),
          (47, 48), (50, 51)] by cbv)
  exact ⟨small, program, parsed, seen, nested_of_parseSource small parsed⟩

end Multiparty
