import Multiparty.FrontEnd
import Multiparty.Proofs.StatementReading

/-! The parser accepts exactly the token streams that the grammar derives, and gives the tree that it derives. -/

namespace Multiparty
open Grammar Multiparty.Parser Token

namespace Parser
variable {cursor later : Cursor}

theorem function_sound (start : Cursor → Prop) :
    Sound start (function .standard) Function.bare FunctionText := by
  intro cursor value later closed _ ran
  simp only [function, bind_eq_done, expect_eq_done, type_eq_done, identifier_eq_done,
    spanFrom_eq_done, pure_eq_done] at ran
  obtain ⟨_, _, ⟨found, rfl, rfl⟩, type, _, ⟨known, rfl⟩, name, _, ⟨named, rfl, rfl⟩, parameters, middle,
    ranParameters, body, last, ranBody, _, _, ⟨rfl, rfl⟩, rfl, rfl⟩ := ran
  have word := closed.consumes_mark found rfl nofun
  have closedType := word.closed closed
  have typeWord := closedType.consumes_mark rfl (isMark_of_type? known).1 (isMark_of_type? known).2
  have closedName := typeWord.closed closedType
  have nameToken := closedName.consumes_name named
  have closedParameters := nameToken.closed closedName
  obtain ⟨pieces, listed, same, texts, list, taken⟩ :=
    commaSeparated_sound (binder_sound anywhere) closedParameters ranParameters
  obtain ⟨stmts, sameBody, textsBody, takenBody⟩ :=
    statements_sound statement_sound (taken.closed closedParameters) ranBody
  rw [Function.bare, ← same, ← sameBody]
  refine ⟨_, ?_, .mk known texts list textsBody⟩
  simpa using word.trans (typeWord.trans (nameToken.trans (taken.trans takenBody)))

theorem tunnel_sound : Sound (fun cursor => cursor.kind = .tunnelWord) tunnel Tunnel.bare
    TunnelText := by
  intro cursor value later closed found ran
  simp only [tunnel, bind_eq_done, advance_eq_done, expect_eq_done, spanFrom_eq_done,
    pure_eq_done] at ran
  obtain ⟨_, _, ⟨rfl, rfl⟩, _, _, ⟨ofWord, rfl, rfl⟩, binder, middle, ran, _, _, ⟨stop, rfl, rfl⟩, _, _,
    ⟨rfl, rfl⟩, rfl, rfl⟩ := ran
  have word := closed.consumes_mark found rfl nofun
  have wordOf := (word.closed closed).consumes_mark ofWord rfl nofun
  have closedBinder := wordOf.closed (word.closed closed)
  obtain ⟨text, taken, spelled⟩ := binder_sound anywhere _ _ _ closedBinder trivial ran
  have ended := (taken.closed closedBinder).consumes_mark stop rfl nofun
  exact ⟨_, word.trans (wordOf.trans (taken.trans ended)), .mk spelled⟩

theorem group_sound : Sound (fun cursor => cursor.kind = .groupWord) group Group.bare GroupText := by
  intro cursor value later closed found ran
  simp only [group, bind_eq_done, advance_eq_done, expect_eq_done, identifier_eq_done,
    spanFrom_eq_done, pure_eq_done] at ran
  obtain ⟨_, _, ⟨rfl, rfl⟩, _, _, ⟨ofWord, rfl, rfl⟩, client, _, ⟨clientNamed, rfl, rfl⟩, name, _,
    ⟨named, rfl, rfl⟩, _, _, ⟨stop, rfl, rfl⟩, _, _, ⟨rfl, rfl⟩, rfl, rfl⟩ := ran
  have word := closed.consumes_mark found rfl nofun
  have wordOf := (word.closed closed).consumes_mark ofWord rfl nofun
  have closedClient := wordOf.closed (word.closed closed)
  have client := closedClient.consumes_name clientNamed
  have name := (client.closed closedClient).consumes_name named
  have ended := (name.closed (client.closed closedClient)).consumes_mark stop rfl nofun
  exact ⟨_, word.trans (wordOf.trans (client.trans (name.trans ended))), .mk⟩

theorem clientMember_sound (start : Cursor → Prop) :
    Sound start (clientMember .standard) (Sum.map Tunnel.bare Function.bare)
      (MemberText TunnelText) := by
  intro cursor value later closed _ ran
  simp only [clientMember, bind_eq_done, kind_eq_done] at ran
  obtain ⟨seen, _, ⟨found, rfl⟩, ran⟩ := ran
  split at ran
  next =>
    simp only [bind_eq_done, pure_eq_done] at ran
    obtain ⟨tunnel, _, ran, rfl, rfl⟩ := ran
    obtain ⟨text, taken, spelled⟩ := tunnel_sound _ _ _ closed found ran
    exact ⟨text, taken, .other spelled⟩
  next =>
    simp only [bind_eq_done, pure_eq_done] at ran
    obtain ⟨function, _, ran, rfl, rfl⟩ := ran
    obtain ⟨text, taken, spelled⟩ := function_sound anywhere _ _ _ closed trivial ran
    exact ⟨text, taken, .function spelled⟩
  next => cases ran

theorem serverMember_sound (start : Cursor → Prop) :
    Sound start (serverMember .standard) (Sum.map Group.bare Function.bare)
      (MemberText GroupText) := by
  intro cursor value later closed _ ran
  simp only [serverMember, bind_eq_done, kind_eq_done] at ran
  obtain ⟨seen, _, ⟨found, rfl⟩, ran⟩ := ran
  split at ran
  next =>
    simp only [bind_eq_done, pure_eq_done] at ran
    obtain ⟨group, _, ran, rfl, rfl⟩ := ran
    obtain ⟨text, taken, spelled⟩ := group_sound _ _ _ closed found ran
    exact ⟨text, taken, .other spelled⟩
  next =>
    simp only [bind_eq_done, pure_eq_done] at ran
    obtain ⟨function, _, ran, rfl, rfl⟩ := ran
    obtain ⟨text, taken, spelled⟩ := function_sound anywhere _ _ _ closed trivial ran
    exact ⟨text, taken, .function spelled⟩
  next => cases ran

section
variable {α β γ δ : Type} (left : α → γ) (right : β → δ)

theorem filterMap_getLeft? (items : List (α ⊕ β)) :
    (items.map (Sum.map left right)).filterMap Sum.getLeft? =
      (items.filterMap Sum.getLeft?).map left := by
  induction items with
  | nil => rfl
  | cons item rest ih => cases item <;> simpa [List.filterMap_cons] using ih

theorem filterMap_getRight? (items : List (α ⊕ β)) :
    (items.map (Sum.map left right)).filterMap Sum.getRight? =
      (items.filterMap Sum.getRight?).map right := by
  induction items with
  | nil => rfl
  | cons item rest ih => cases item <;> simpa [List.filterMap_cons] using ih

variable {left right} {member : Parser (α ⊕ β)} {text : List Terminal → γ ⊕ δ → Prop}

theorem members_sound (sound : ∀ start, Sound start member (Sum.map left right) text)
    (closed : cursor.Closed) {values : List α × List β}
    (ran : members member cursor = .done values later) :
    ∃ pieces : List (List Terminal × (γ ⊕ δ)), (∀ piece ∈ pieces, text piece.1 piece.2) ∧
      (pieces.map Prod.snd).filterMap Sum.getLeft? = values.1.map left ∧
      (pieces.map Prod.snd).filterMap Sum.getRight? = values.2.map right ∧
      cursor.Consumes (.mark .openCurly :: (pieces.map Prod.fst).flatten ++ [.mark .closeCurly])
        later := by
  simp only [members, bind_eq_done, expect_eq_done, pure_eq_done] at ran
  obtain ⟨_, _, ⟨opening, rfl, rfl⟩, items, middle, ran, _, _, ⟨closing, rfl, rfl⟩, rfl, rfl⟩ := ran
  have opened := closed.consumes_mark opening rfl nofun
  obtain ⟨pieces, same, texts, taken, -⟩ := many_sound (sound _) (opened.closed closed) ran
  have ended := (taken.closed (opened.closed closed)).consumes_mark closing rfl nofun
  refine ⟨pieces, texts, ?_, ?_, opened.trans (taken.trans ended)⟩
  · rw [same, filterMap_getLeft?]
  · rw [same, filterMap_getRight?]

end

theorem client_sound (start : Cursor → Prop) :
    Sound start (client .standard) Client.bare ClientText := by
  intro cursor value later closed _ ran
  simp only [client, bind_eq_done, expect_eq_done, identifier_eq_done, spanFrom_eq_done,
    pure_eq_done] at ran
  obtain ⟨_, _, ⟨declare, rfl, rfl⟩, _, _, ⟨part, rfl, rfl⟩, name, _, ⟨named, rfl, rfl⟩, values, middle,
    ran, _, _, ⟨rfl, rfl⟩, rfl, rfl⟩ := ran
  have word := closed.consumes_mark declare rfl nofun
  have partWord := (word.closed closed).consumes_mark part rfl nofun
  have closedName := partWord.closed (word.closed closed)
  have nameToken := closedName.consumes_name named
  obtain ⟨members, texts, tunnels, functions, taken⟩ :=
    members_sound clientMember_sound (nameToken.closed closedName) ran
  refine ⟨_, word.trans (partWord.trans (nameToken.trans taken)), ?_⟩
  rw [Client.bare, ← tunnels, ← functions]
  exact .mk texts

theorem server_sound (start : Cursor → Prop) :
    Sound start (server .standard) Server.bare ServerText := by
  intro cursor value later closed _ ran
  simp only [server, bind_eq_done, expect_eq_done, identifier_eq_done, spanFrom_eq_done,
    pure_eq_done] at ran
  obtain ⟨_, _, ⟨declare, rfl, rfl⟩, _, _, ⟨part, rfl, rfl⟩, name, _, ⟨named, rfl, rfl⟩, values, middle,
    ran, _, _, ⟨rfl, rfl⟩, rfl, rfl⟩ := ran
  have word := closed.consumes_mark declare rfl nofun
  have partWord := (word.closed closed).consumes_mark part rfl nofun
  have closedName := partWord.closed (word.closed closed)
  have nameToken := closedName.consumes_name named
  obtain ⟨members, texts, groups, functions, taken⟩ :=
    members_sound serverMember_sound (nameToken.closed closedName) ran
  refine ⟨_, word.trans (partWord.trans (nameToken.trans taken)), ?_⟩
  rw [Server.bare, ← groups, ← functions]
  exact .mk texts

theorem require_eq_done {holds : Cursor → Bool} {reason : String} {value : Unit} :
    require holds reason cursor = .done value later ↔ holds cursor = true ∧ cursor = later := by
  unfold require
  by_cases here : holds cursor = true <;> simp [here]

theorem require_done {holds : Cursor → Bool} {reason : String} (met : holds cursor = true) :
    require holds reason cursor = .done () cursor :=
  require_eq_done.mpr ⟨met, rfl⟩

/-- A program that was read ends where the tokens do. -/
theorem program_sound (closed : cursor.Closed) {value : Program}
    (ran : program .standard cursor = .done value later) :
    ∃ text, cursor.Consumes text later ∧ ProgramText text value.bare ∧ later.kind = .endOfInput := by
  simp only [program, bind_eq_done, position_eq_done, require_eq_done, spanFrom_eq_done,
    pure_eq_done] at ran
  obtain ⟨_, _, ⟨rfl, rfl⟩, clients, middle, ranClients, _, _, ⟨_, rfl⟩, server, last, ranServer, _, _,
    ⟨ended, rfl⟩, _, _, ⟨rfl, rfl⟩, rfl, rfl⟩ := ran
  obtain ⟨pieces, same, texts, taken, -⟩ := many_sound (client_sound _) closed ranClients
  obtain ⟨text, takenServer, spelled⟩ :=
    server_sound anywhere _ _ _ (taken.closed closed) trivial ranServer
  refine ⟨_, taken.trans takenServer, ?_, by simpa [Cursor.atEnd] using ended⟩
  rw [Program.bare, ← same]
  exact .mk texts spelled

theorem function_complete {text : List Terminal} {expected : Function}
    (spelled : FunctionText text expected) (consumed : cursor.Consumes text later) :
    ∃ value, function .standard cursor = .done value later ∧ value.bare = expected := by
  cases spelled with
  | @mk word type name listed parameters body known texts list textsBody =>
    have consumed : cursor.Consumes (.mark .functionWord :: .mark word :: .name name ::
        ((.mark .openParen :: listed ++ [.mark .closeParen]) ++
          (.mark .openCurly :: (body.map Prod.fst).flatten ++ [.mark .closeCurly]))) later := by
      simpa using consumed
    obtain ⟨_, _, typeWord⟩ := id consumed
    obtain ⟨_, _, named⟩ := id typeWord
    obtain ⟨middle, takenParameters, takenBody⟩ := Cursor.consumes_append.mp named.2.2
    have starts : ∀ parameter ∈ parameters, ∀ cursor later : Cursor,
        cursor.Consumes parameter.1 later → parameter.1 ≠ [] ∧ cursor.kind ≠ .closeParen := by
      intro parameter member cursor later taken
      obtain ⟨first, rest, same, starts⟩ := (texts parameter member).first
      rw [same] at taken ⊢
      rw [mark_kind taken]
      exact ⟨nofun, by rintro rfl; nomatch starts⟩
    obtain ⟨binders, ranBinders, sameBinders⟩ : ∃ binders,
        commaSeparated binder "expected `,` between parameters" cursor.advance.advance.advance =
          .done binders middle ∧ binders.map Binder.bare = parameters.map Prod.snd :=
      commaSeparated_complete starts
        (fun parameter member cursor later taken _ _ => binder_complete (texts parameter member) taken)
        list takenParameters (Nat.lt_succ_of_le (Nat.le_refl _))
    obtain ⟨stmts, ranBody, sameBody⟩ := statements_complete textsBody
      (fun stmt member cursor later taken noElse _ =>
        statement_complete (textsBody stmt member) taken noElse) takenBody (Nat.le_refl _)
    refine ⟨⟨type, ⟨name, cursor.advance.advance.current.span⟩, binders, stmts,
      later.spanFrom cursor.current.span.start⟩, ?_, ?_⟩
    · rw [function, bind_done (expect_complete consumed),
        bind_done (type_eq_done.mpr ⟨by rw [mark_kind typeWord, known], rfl⟩),
        bind_done (identifier_complete named), bind_done ranBinders, bind_done ranBody]
      rfl
    · rw [Function.bare, sameBinders, sameBody]
      rfl

theorem tunnel_complete {text : List Terminal} {expected : Tunnel} (spelled : TunnelText text expected)
    (consumed : cursor.Consumes text later) :
    ∃ value, tunnel cursor = .done value later ∧ value.bare = expected := by
  cases spelled with
  | mk spelled =>
    obtain ⟨_, _, ofWord⟩ := consumed
    obtain ⟨middle, taken, stop⟩ := Cursor.consumes_append.mp ofWord.2.2
    obtain ⟨binder, ran, same⟩ := binder_complete spelled taken
    refine ⟨⟨binder, later.spanFrom cursor.current.span.start⟩, ?_, by rw [Tunnel.bare, same]⟩
    rw [tunnel, bind_done advance_complete, bind_done (expect_complete ofWord), bind_done ran,
      bind_done (expect_complete stop), stop.2.2]
    rfl

theorem group_complete {text : List Terminal} {expected : Group} (spelled : GroupText text expected)
    (consumed : cursor.Consumes text later) :
    ∃ value, group cursor = .done value later ∧ value.bare = expected := by
  cases spelled with
  | @mk client name =>
    obtain ⟨_, _, ofWord⟩ := consumed
    obtain ⟨_, _, clientNamed⟩ := id ofWord
    obtain ⟨_, _, named⟩ := id clientNamed
    obtain ⟨_, _, stop⟩ := id named
    refine ⟨⟨⟨client, cursor.advance.advance.current.span⟩,
      ⟨name, cursor.advance.advance.advance.current.span⟩,
      later.spanFrom cursor.current.span.start⟩, ?_, rfl⟩
    rw [group, bind_done advance_complete, bind_done (expect_complete ofWord),
      bind_done (identifier_complete clientNamed), bind_done (identifier_complete named),
      bind_done (expect_complete stop), stop.2.2]
    rfl

theorem FunctionText.first {text : List Terminal} {function : Function}
    (spelled : FunctionText text function) : ∃ rest, text = .mark .functionWord :: rest := by
  cases spelled
  exact ⟨_, rfl⟩

theorem MemberText.first {α : Type} {other : List Terminal → α → Prop} {word : Kind}
    (otherFirst : ∀ {text item}, other text item → ∃ rest, text = .mark word :: rest)
    {text : List Terminal} {item : α ⊕ Function} (spelled : MemberText other text item) :
    ∃ kind rest, text = .mark kind :: rest ∧ (kind = word ∨ kind = .functionWord) := by
  cases spelled with
  | other spelled =>
    obtain ⟨rest, same⟩ := otherFirst spelled
    exact ⟨word, rest, same, .inl rfl⟩
  | function spelled =>
    obtain ⟨rest, same⟩ := FunctionText.first spelled
    exact ⟨_, rest, same, .inr rfl⟩

theorem TunnelText.first {text : List Terminal} {tunnel : Tunnel} (spelled : TunnelText text tunnel) :
    ∃ rest, text = .mark .tunnelWord :: rest := by
  cases spelled
  exact ⟨_, rfl⟩

theorem GroupText.first {text : List Terminal} {group : Group} (spelled : GroupText text group) :
    ∃ rest, text = .mark .groupWord :: rest := by
  cases spelled
  exact ⟨_, rfl⟩

theorem clientMember_complete {text : List Terminal} {expected : Tunnel ⊕ Function}
    (spelled : MemberText TunnelText text expected) (consumed : cursor.Consumes text later) :
    ∃ value, clientMember .standard cursor = .done value later ∧
      value.map Tunnel.bare Function.bare = expected := by
  cases spelled with
  | other spelled =>
    obtain ⟨tunnel, ran, same⟩ := tunnel_complete spelled consumed
    refine ⟨.inl tunnel, ?_, by rw [Sum.map_inl, same]⟩
    cases spelled
    rw [clientMember, bind_done (kind_eq_done.mpr ⟨mark_kind consumed, rfl⟩)]
    simp only
    rw [bind_done ran]
    rfl
  | function spelled =>
    obtain ⟨function, ran, same⟩ := function_complete spelled consumed
    obtain ⟨rest, text⟩ := FunctionText.first spelled
    refine ⟨.inr function, ?_, by rw [Sum.map_inr, same]⟩
    rw [text] at consumed
    rw [clientMember, bind_done (kind_eq_done.mpr ⟨mark_kind consumed, rfl⟩)]
    simp only
    rw [bind_done ran]
    rfl

theorem serverMember_complete {text : List Terminal} {expected : Group ⊕ Function}
    (spelled : MemberText GroupText text expected) (consumed : cursor.Consumes text later) :
    ∃ value, serverMember .standard cursor = .done value later ∧
      value.map Group.bare Function.bare = expected := by
  cases spelled with
  | other spelled =>
    obtain ⟨group, ran, same⟩ := group_complete spelled consumed
    refine ⟨.inl group, ?_, by rw [Sum.map_inl, same]⟩
    cases spelled
    rw [serverMember, bind_done (kind_eq_done.mpr ⟨mark_kind consumed, rfl⟩)]
    simp only
    rw [bind_done ran]
    rfl
  | function spelled =>
    obtain ⟨function, ran, same⟩ := function_complete spelled consumed
    obtain ⟨rest, text⟩ := FunctionText.first spelled
    refine ⟨.inr function, ?_, by rw [Sum.map_inr, same]⟩
    rw [text] at consumed
    rw [serverMember, bind_done (kind_eq_done.mpr ⟨mark_kind consumed, rfl⟩)]
    simp only
    rw [bind_done ran]
    rfl

section
variable {α β γ δ : Type} {left : α → γ} {right : β → δ} {member : Parser (α ⊕ β)}
  {text : List Terminal → γ ⊕ δ → Prop}

theorem members_complete {pieces : List (List Terminal × (γ ⊕ δ))}
    (starts : ∀ piece ∈ pieces, ∃ kind rest, piece.1 = .mark kind :: rest ∧ kind ≠ .closeCurly)
    (each : ∀ piece ∈ pieces, ∀ cursor later : Cursor, cursor.Consumes piece.1 later →
      ∃ value, member cursor = .done value later ∧ value.map left right = piece.2)
    (consumed : cursor.Consumes (.mark .openCurly :: (pieces.map Prod.fst).flatten ++
      [.mark .closeCurly]) later) :
    ∃ values, members member cursor = .done values later ∧
      values.1.map left = (pieces.map Prod.snd).filterMap Sum.getLeft? ∧
      values.2.map right = (pieces.map Prod.snd).filterMap Sum.getRight? := by
  obtain ⟨_, _, rest⟩ := id consumed
  obtain ⟨middle, taken, closes⟩ := Cursor.consumes_append.mp rest
  have closing := mark_kind closes
  have opens : ∀ piece ∈ pieces, ∀ cursor later : Cursor, cursor.Consumes piece.1 later →
      piece.1 ≠ [] ∧ decide (cursor.kind ≠ .closeCurly) = true ∧ True := by
    intro piece present cursor later taken
    obtain ⟨kind, rest, same, noClose⟩ := starts piece present
    rw [same] at taken ⊢
    rw [mark_kind taken]
    exact ⟨nofun, decide_eq_true noClose, trivial⟩
  obtain ⟨values, ran, same⟩ : ∃ values,
      many (fun cursor => cursor.kind ≠ .closeCurly) member cursor.advance = .done values middle ∧
        values.map (Sum.map left right) = pieces.map Prod.snd :=
    many_complete opens
      (fun piece present cursor later taken _ _ => each piece present cursor later taken)
      (by rw [closing]; rfl) trivial taken (Nat.lt_succ_self _)
  refine ⟨(values.filterMap Sum.getLeft?, values.filterMap Sum.getRight?), ?_, ?_, ?_⟩
  · rw [members, bind_done (expect_complete consumed), bind_done ran,
      bind_done (expect_complete closes), closes.2.2]
    rfl
  · rw [← same, filterMap_getLeft?]
  · rw [← same, filterMap_getRight?]

end

theorem client_complete {text : List Terminal} {expected : Client} (spelled : ClientText text expected)
    (consumed : cursor.Consumes text later) :
    ∃ value, client .standard cursor = .done value later ∧ value.bare = expected := by
  cases spelled with
  | @mk name members texts =>
    obtain ⟨_, _, part⟩ := id consumed
    obtain ⟨_, _, named⟩ := id part
    have starts : ∀ member ∈ members, ∃ kind rest, member.1 = .mark kind :: rest ∧
        kind ≠ .closeCurly := by
      intro member present
      obtain ⟨kind, rest, same, rfl | rfl⟩ := MemberText.first TunnelText.first (texts member present)
      · exact ⟨_, rest, same, nofun⟩
      · exact ⟨_, rest, same, nofun⟩
    obtain ⟨values, ran, tunnels, functions⟩ := members_complete starts
      (fun member present cursor later taken => clientMember_complete (texts member present) taken)
      named.2.2
    refine ⟨⟨⟨name, cursor.advance.advance.current.span⟩, values.1, values.2,
      later.spanFrom cursor.current.span.start⟩, ?_, ?_⟩
    · rw [client, bind_done (expect_complete consumed), bind_done (expect_complete part),
        bind_done (identifier_complete named), bind_done ran]
      rfl
    · rw [Client.bare, tunnels, functions]
      rfl

theorem server_complete {text : List Terminal} {expected : Server} (spelled : ServerText text expected)
    (consumed : cursor.Consumes text later) :
    ∃ value, server .standard cursor = .done value later ∧ value.bare = expected := by
  cases spelled with
  | @mk name members texts =>
    obtain ⟨_, _, part⟩ := id consumed
    obtain ⟨_, _, named⟩ := id part
    have starts : ∀ member ∈ members, ∃ kind rest, member.1 = .mark kind :: rest ∧
        kind ≠ .closeCurly := by
      intro member present
      obtain ⟨kind, rest, same, rfl | rfl⟩ := MemberText.first GroupText.first (texts member present)
      · exact ⟨_, rest, same, nofun⟩
      · exact ⟨_, rest, same, nofun⟩
    obtain ⟨values, ran, groups, functions⟩ := members_complete starts
      (fun member present cursor later taken => serverMember_complete (texts member present) taken)
      named.2.2
    refine ⟨⟨⟨name, cursor.advance.advance.current.span⟩, values.1, values.2,
      later.spanFrom cursor.current.span.start⟩, ?_, ?_⟩
    · rw [server, bind_done (expect_complete consumed), bind_done (expect_complete part),
        bind_done (identifier_complete named), bind_done ran]
      rfl
    · rw [Server.bare, groups, functions]
      rfl

theorem ClientText.first {text : List Terminal} {client : Client} (spelled : ClientText text client) :
    ∃ rest, text = .mark .declareWord :: .mark .clientWord :: rest := by
  cases spelled
  exact ⟨_, rfl⟩

theorem ServerText.first {text : List Terminal} {server : Server} (spelled : ServerText text server) :
    ∃ rest, text = .mark .declareWord :: .mark .serverWord :: rest := by
  cases spelled
  exact ⟨_, rfl⟩

/-- What stands after `declare` tells clients from the server. -/
theorem declares_eq {part : Kind} {rest : List Terminal} (wanted : Kind)
    (consumed : cursor.Consumes (.mark .declareWord :: .mark part :: rest) later) :
    declares wanted cursor = (part == wanted) := by
  obtain ⟨_, more, next⟩ := id consumed
  rw [declares, mark_kind consumed, kindAhead_one more, mark_kind next]
  simp

theorem program_complete {text : List Terminal} {expected : Program}
    (spelled : ProgramText text expected) (consumed : cursor.Consumes text later)
    (ended : later.kind = .endOfInput) :
    ∃ value, program .standard cursor = .done value later ∧ value.bare = expected := by
  cases spelled with
  | @mk clients text server texts spelledServer =>
    obtain ⟨middle, taken, takenServer⟩ := Cursor.consumes_append.mp consumed
    have starts : ∀ client ∈ clients, ∀ cursor later : Cursor, cursor.Consumes client.1 later →
        client.1 ≠ [] ∧ declares .clientWord cursor = true ∧ True := by
      intro client present cursor later taken
      obtain ⟨rest, same⟩ := ClientText.first (texts client present)
      rw [same] at taken ⊢
      exact ⟨nofun, declares_eq _ taken, trivial⟩
    obtain ⟨rest, same⟩ := ServerText.first spelledServer
    obtain ⟨serverValue, ranServer, sameServer⟩ := server_complete spelledServer takenServer
    rw [same] at takenServer
    obtain ⟨values, ran, sameClients⟩ := many_complete starts
      (fun client present cursor later taken _ _ => client_complete (texts client present) taken)
      (declares_eq _ takenServer) trivial taken (Nat.lt_succ_self _)
    refine ⟨⟨values, serverValue, later.spanFrom cursor.position⟩, ?_,
      by rw [Program.bare, sameClients, sameServer]⟩
    rw [program, bind_done (position_eq_done.mpr ⟨rfl, rfl⟩), bind_done ran,
      bind_done (require_done (declares_eq _ takenServer)), bind_done ranServer,
      bind_done (require_done (by rw [Cursor.atEnd, ended]; rfl))]
    rfl

end Parser

namespace Cursor

theorem stream_advance {cursor : Cursor} {token : Token} {rest : List Token} (more : rest ≠ [])
    (stream : cursor.current :: cursor.ahead = token :: rest) :
    cursor.advance.current :: cursor.advance.ahead = rest := by
  obtain ⟨behind, current, ahead⟩ := cursor
  obtain ⟨rfl, rfl⟩ := List.cons.inj stream
  cases ahead with
  | nil => exact absurd rfl more
  | cons next rest => rfl

/-- What is consumed up to the end of the input are the terminals of all tokens before it. -/
theorem consumes_all_iff {cursor : Cursor} {body : List Token} {last : Token} {text : List Terminal}
    (stream : cursor.current :: cursor.ahead = body ++ [last]) (ended : last.kind = .endOfInput)
    (inside : ∀ token ∈ body, token.kind ≠ .endOfInput) :
    (∃ later, cursor.Consumes text later ∧ later.kind = .endOfInput) ↔
      text = body.map Terminal.of := by
  induction text generalizing cursor body with
  | nil =>
    cases body with
    | nil =>
      have current := (List.cons.inj stream).1
      exact ⟨fun _ => rfl, fun _ => ⟨cursor, rfl, by rw [Cursor.kind, current, ended]⟩⟩
    | cons token body =>
      have current := (List.cons.inj stream).1
      constructor
      · rintro ⟨later, rfl, stopped⟩
        rw [Cursor.kind, current] at stopped
        exact absurd stopped (inside token List.mem_cons_self)
      · intro impossible
        cases impossible
  | cons terminal text ih =>
    cases body with
    | nil =>
      have noMore := (List.cons.inj stream).2
      constructor
      · rintro ⟨later, ⟨_, more, _⟩, _⟩
        exact absurd noMore more
      · intro impossible
        cases impossible
    | cons token body =>
      obtain ⟨current, ahead⟩ := List.cons.inj stream
      have further := ih (stream_advance (by simp) stream)
        fun token member => inside token (List.mem_cons_of_mem _ member)
      rw [List.map_cons, List.cons.injEq, ← further, ← current]
      constructor
      · rintro ⟨later, ⟨same, _, taken⟩, stopped⟩
        exact ⟨same.symm, later, taken, stopped⟩
      · rintro ⟨same, later, taken, stopped⟩
        exact ⟨later, ⟨same.symm, by simp [ahead], taken⟩, stopped⟩

theorem closedAfter_eq_self {first last : Token} {body : List Token} (ended : last.kind = .endOfInput) :
    closedAfter first (body ++ [last]) = body ++ [last] := by
  induction body generalizing first with
  | nil => simp [closedAfter, ended]
  | cons token body ih => rw [List.cons_append, closedAfter, ih]

theorem ofTokens_stream (file : String) {body : List Token} {last : Token}
    (ended : last.kind = .endOfInput) :
    (ofTokens file (body ++ [last])).current :: (ofTokens file (body ++ [last])).ahead =
      body ++ [last] := by
  cases body with
  | nil => simp [ofTokens, closedAfter, ended]
  | cons token body => simp [ofTokens, closedAfter_eq_self ended]

end Cursor

theorem parseTokens_eq_ok {file : String} {tokens : List Token} {program : Program} :
    parseTokens file tokens = .ok program ↔
      ∃ later, Parser.program .standard (.ofTokens file tokens) = .done program later := by
  unfold parseTokens
  split
  next read later settled =>
    rw [settled]
    constructor
    · rintro ⟨⟩
      exact ⟨later, rfl⟩
    · rintro ⟨_, ⟨⟩⟩
      rfl
  next diagnostic stopped settled =>
    rw [settled]
    exact ⟨nofun, nofun⟩
  next settled => exact absurd settled (Parser.program_settles file tokens)

section
variable {file : String} {body : List Token} {last : Token} (ended : last.kind = .endOfInput)
  (inside : ∀ token ∈ body, token.kind ≠ .endOfInput)

include ended inside in
theorem programText_of_parseTokens {program : Program}
    (ran : parseTokens file (body ++ [last]) = .ok program) :
    ProgramText (body.map Terminal.of) program.bare := by
  obtain ⟨later, ran⟩ := parseTokens_eq_ok.mp ran
  obtain ⟨text, taken, spelled, stopped⟩ := Parser.program_sound (Cursor.ofTokens_closed _ _) ran
  have same := (Cursor.consumes_all_iff (Cursor.ofTokens_stream file ended) ended inside).mp
    ⟨later, taken, stopped⟩
  rwa [← same]

include ended inside in
theorem parseTokens_of_programText {tree : Program} (spelled : ProgramText (body.map Terminal.of) tree) :
    ∃ program, parseTokens file (body ++ [last]) = .ok program ∧ program.bare = tree := by
  obtain ⟨later, taken, stopped⟩ :=
    (Cursor.consumes_all_iff (Cursor.ofTokens_stream file ended) ended inside).mpr rfl
  obtain ⟨program, ran, same⟩ := Parser.program_complete spelled taken stopped
  exact ⟨program, parseTokens_eq_ok.mpr ⟨later, ran⟩, same⟩

end

/-- Of a stream with one end-of-input token, at its end, the parser accepts what the grammar derives from the tokens
before it, and its tree is the derived one. -/
theorem parseTokens_iff_programText {file : String} {body : List Token} {last : Token}
    (ended : last.kind = .endOfInput) (inside : ∀ token ∈ body, token.kind ≠ .endOfInput)
    (tree : Program) :
    (∃ program, parseTokens file (body ++ [last]) = .ok program ∧ program.bare = tree) ↔
      ProgramText (body.map Terminal.of) tree := by
  constructor
  · rintro ⟨program, ran, rfl⟩
    exact programText_of_parseTokens ended inside ran
  · exact parseTokens_of_programText ended inside

/-- The tokens of `declare server Main { function void run() { return; } }`. -/
theorem parseTokens_returning_server :
    ∃ program, parseTokens "main" ([⟨.declareWord, "declare", .nowhere⟩, ⟨.serverWord, "server", .nowhere⟩,
        ⟨.identifier, "Main", .nowhere⟩, ⟨.openCurly, "\x7b", .nowhere⟩,
        ⟨.functionWord, "function", .nowhere⟩, ⟨.voidWord, "void", .nowhere⟩,
        ⟨.identifier, "run", .nowhere⟩, ⟨.openParen, "(", .nowhere⟩, ⟨.closeParen, ")", .nowhere⟩,
        ⟨.openCurly, "\x7b", .nowhere⟩, ⟨.returnWord, "return", .nowhere⟩, ⟨.semicolon, ";", .nowhere⟩,
        ⟨.closeCurly, "\x7d", .nowhere⟩, ⟨.closeCurly, "\x7d", .nowhere⟩] ++
          [Token.endOfInput .nowhere]) = .ok program ∧
      program.bare = ⟨[], ⟨bareName "Main", [],
        [⟨.void, bareName "run", [], [.returns none .nowhere], .nowhere⟩], .nowhere⟩, .nowhere⟩ := by
  refine (parseTokens_iff_programText rfl (by decide) _).mpr ?_
  have run := @FunctionText.mk .voidWord .void "run" [] [] [(_, .returns none .nowhere)] rfl nofun .nil
    (List.forall_mem_singleton.mpr .returnsNothing)
  have main := @ServerText.mk "Main" [(_, .inr _)] (List.forall_mem_singleton.mpr (.function run))
  exact @ProgramText.mk [] _ _ nofun main

end Multiparty
