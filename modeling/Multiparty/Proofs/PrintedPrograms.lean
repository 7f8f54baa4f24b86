import Multiparty.Proofs.FunctionChecks
import Multiparty.Proofs.PrintedStatements

/-! Printed parts and programs read as the trees that they were typed from. Declarations come before functions in the
printed text, however they were mixed: each sort keeps its order. -/

namespace Multiparty
open Grammar Token Typing

/-- A text that the grammar derives the value from, and that can be read from characters. -/
def Spelled {γ : Type} (spells : List Terminal → γ → Prop) (value : γ) : Prop :=
  ∃ text, spells text value ∧ ∀ terminal ∈ text, terminal.Lexical

/-- Where each item shows a text of its tree, the texts that are shown come in the order of the items. -/
theorem pieces_of_each {β γ : Type} {spells : List Terminal → γ → Prop} {shows : β → List Terminal → Prop}
    {items : List β} {trees : List γ}
    (each : List.Forall₂ (fun item tree => ∃ text, spells text tree ∧ shows item text) items trees) :
    ∃ pieces : List (List Terminal × γ), pieces.map Prod.snd = trees ∧
      (∀ piece ∈ pieces, spells piece.1 piece.2) ∧ List.Forall₂ shows items (pieces.map Prod.fst) := by
  induction each with
  | nil => exact ⟨[], rfl, List.forall_mem_nil _, .nil⟩
  | @cons _ tree _ _ first _ ih =>
    obtain ⟨text, spells, shown⟩ := first
    obtain ⟨pieces, rfl, texts, all⟩ := ih
    refine ⟨(text, tree) :: pieces, rfl, ?_, .cons shown all⟩
    rw [List.forall_mem_cons]
    exact ⟨spells, texts⟩

/-- Each typed item shows what it was typed from if one does that derives from a text. -/
theorem Typing.InTurn.shows {α β γ : Type} {derives : List α → α → β → Prop} {erase : α → γ}
    {spells : List Terminal → γ → Prop} {shows : β → List Terminal → Prop} {before items : List α}
    {typed : List β} (turn : InTurn derives before items typed)
    (spelled : ∀ value ∈ items.map erase, Spelled spells value)
    (each : ∀ before item typed text, spells text (erase item) →
      (∀ terminal ∈ text, terminal.Lexical) → derives before item typed →
      ∃ text, spells text (erase item) ∧ shows typed text) :
    List.Forall₂ (fun item tree => ∃ text, spells text tree ∧ shows item text) typed (items.map erase) := by
  induction turn with
  | nil => exact .nil
  | @cons before rest item typed others derive _ ih =>
    rw [List.map_cons, List.forall_mem_cons] at spelled
    obtain ⟨⟨text, spells, lexical⟩, further⟩ := spelled
    exact .cons (each before item typed text spells lexical derive) (ih further)

theorem spelled_pieces {γ : Type} {spells : List Terminal → γ → Prop} {pieces : List (List Terminal × γ)}
    (texts : ∀ piece ∈ pieces, spells piece.1 piece.2)
    (lexical : ∀ text ∈ pieces.map Prod.fst, ∀ terminal ∈ text, terminal.Lexical) :
    ∀ value ∈ pieces.map Prod.snd, Spelled spells value := by
  rw [List.forall_mem_map] at lexical ⊢
  intro piece among
  exact ⟨piece.1, texts piece among, lexical piece among⟩

namespace Typed

theorem writes_lines {lines : List String} {texts : List (List Terminal)}
    (writes : List.Forall₂ (fun line text => Writes [line] text) lines texts) :
    Writes lines texts.flatten := by
  induction writes with
  | nil => exact writes_nil
  | cons writes _ ih => exact writes.append ih

/-- Groups of lines with blank lines between them. -/
theorem writes_groups {groups : List (List String)} {texts : List (List Terminal)}
    (writes : List.Forall₂ Writes groups texts) : Writes ([""].intercalate groups) texts.flatten := by
  induction writes with
  | nil => exact writes_nil
  | @cons first text others texts writes rest ih =>
    cases rest with
    | nil => simpa using writes
    | cons =>
      rw [List.intercalate_cons_cons, List.append_assoc]
      exact writes.append (prints_nothing.writes.append ih)

theorem writes_part {header : String} {head : List Terminal} (heads : Prints header head)
    {declarations : List String} {declared texts : List (List Terminal)} {functions : List Function}
    (lines : List.Forall₂ (fun line text => Writes [line] text) declarations declared)
    (each : List.Forall₂ (fun function text => Writes function.lines text) functions texts) :
    Writes (partLines (header ++ " \x7b") declarations functions)
      (head ++ .mark .openCurly :: (declared.flatten ++ texts.flatten) ++ [.mark .closeCurly]) := by
  have groups : List.Forall₂ Writes (functions.map Function.lines) texts :=
    List.forall₂_map_left_iff.mpr each
  have inside : Writes ([""].intercalate
      (if declarations.isEmpty then functions.map Function.lines
        else declarations :: functions.map Function.lines)) (declared.flatten ++ texts.flatten) := by
    cases lines with
    | nil => exact writes_groups groups
    | cons line lines => exact writes_groups (.cons (writes_lines (.cons line lines)) groups)
  have whole := (heads.opening.writes.append inside).append prints_closing.writes
  unfold partLines
  simpa using whole

variable {options : Options}

theorem reprints_function_of_parts {typed : Function} {word : Kind} (known : word.type? = some typed.returnType)
    (spelled : IsName typed.name) {parameters : List Binder}
    (reprints : List.Forall₂ (fun parameter binder => ∃ text, BinderText text binder ∧
      Prints (parameter.type.name ++ " " ++ parameter.name) text) typed.parameters parameters)
    {stmts : List Multiparty.Stmt} (reprint : ReprintStmts typed.body stmts) :
    ∃ text, FunctionText text ⟨typed.returnType, bareName typed.name, parameters, stmts, .nowhere⟩ ∧
      Writes typed.lines text := by
  obtain ⟨shown, rfl, texts, prints⟩ := pieces_of_each reprints
  obtain ⟨written, rfl, bodyTexts, writes⟩ := reprint
  have word := prints_reserved (show ("function", Kind.functionWord) ∈ reservedWords by decide)
  have header := ((word.spaced (prints_type known)).spaced (prints_name spelled)).applied
    (prints_commas (List.forall₂_map_left_iff.mpr prints))
  have whole := ((writes_line 1 header.opening).append (writes 2)).append (writes_line 1 prints_closing)
  refine ⟨_, .mk known texts (listed_intercalate _) bodyTexts, ?_⟩
  have same : "function " ++ typed.returnType.name ++ " " ++ typed.name ++ "(" ++
      commas (typed.parameters.map fun parameter => parameter.type.name ++ " " ++ parameter.name) ++
        ") \x7b" = "function" ++ " " ++ typed.returnType.name ++ " " ++ typed.name ++ "(" ++
      commas (typed.parameters.map fun parameter => parameter.type.name ++ " " ++ parameter.name) ++
        ")" ++ " \x7b" :=
    String.toList_inj.mp (by simp)
  rw [Function.lines, same]
  simpa using whole

theorem reprints_function {text : List Terminal} {function : Multiparty.Function}
    (spelled : FunctionText text function) (lexical : ∀ terminal ∈ text, terminal.Lexical)
    {owner : String} {holdings : Holdings} {before : List Multiparty.Function}
    {source : Multiparty.Function} {typed : Function} (same : source.bare = function)
    (derive : FunctionDerives options owner holdings before source typed) :
    ∃ text, FunctionText text function ∧ Writes typed.lines text := by
  cases spelled with
  | @mk word type name listed parameters body known binders list stmts =>
    obtain ⟨rfl, sameName, sameParameters, sameBody, -⟩ := Multiparty.Function.mk.inj same
    simp only [List.cons_append, List.forall_mem_cons, List.forall_mem_append] at lexical
    obtain ⟨-, -, nameLexical, -, ⟨listedLexical, -, -, bodyLexical⟩, -⟩ := lexical
    have spelled := spelled_pieces binders (list.forall_mem listedLexical)
    rw [← sameParameters] at spelled
    have reprints : List.Forall₂ (fun parameter binder => ∃ text, BinderText text binder ∧
        Prints (parameter.type.name ++ " " ++ parameter.name) text)
        typed.parameters (source.parameters.map Binder.bare) := by
      apply derive.parameters.shows spelled
      intro before binder parameter text spelled lexical derive
      rw [derive.result]
      exact ⟨text, spelled, reprints_binder spelled lexical rfl⟩
    obtain ⟨after, deriveBody⟩ := derive.body
    rw [← allStmtsBare_eq_map] at sameBody
    have reprint : ReprintStmts typed.body (body.map Prod.snd) := by
      apply reprint_stmts _ sameBody deriveBody
      intro stmt among loops context after source typed same derive
      have lexical := fun terminal within => bodyLexical terminal
        (List.mem_flatten_of_mem (List.mem_map_of_mem among) within)
      exact reprints_stmt (stmts stmt among) lexical same derive
    obtain ⟨returnType, others⟩ := Prod.mk.inj derive.result
    obtain ⟨named, -⟩ := Prod.mk.inj others
    obtain rfl : typed.name = name := named.trans (congrArg Identifier.name sameName)
    rw [← returnType] at known ⊢
    rw [← sameParameters]
    exact reprints_function_of_parts known nameLexical reprints reprint

theorem writes_tunnel {type : Ty} {name : String} {text : List Terminal}
    (prints : Prints (type.name ++ " " ++ name) text) :
    Writes [line 1 ("tunnel of " ++ type.name ++ " " ++ name ++ ";")]
      (.mark .tunnelWord :: .mark .ofWord :: text ++ [.mark .semicolon]) := by
  have words := (prints_reserved (show ("tunnel", Kind.tunnelWord) ∈ reservedWords by decide)).spaced
    (prints_reserved (show ("of", Kind.ofWord) ∈ reservedWords by decide))
  have whole := writes_line 1 (words.spaced prints).ended
  have same : "tunnel of " ++ type.name ++ " " ++ name ++ ";" =
      "tunnel" ++ " " ++ "of" ++ " " ++ (type.name ++ " " ++ name) ++ ";" :=
    String.toList_inj.mp (by simp)
  rw [same]
  simpa using whole

theorem writes_group {client name : String} (clientSpelled : IsName client) (spelled : IsName name) :
    Writes [line 1 ("group of " ++ client ++ " " ++ name ++ ";")]
      [.mark .groupWord, .mark .ofWord, .name client, .name name, .mark .semicolon] := by
  have words := (prints_reserved (show ("group", Kind.groupWord) ∈ reservedWords by decide)).spaced
    (prints_reserved (show ("of", Kind.ofWord) ∈ reservedWords by decide))
  have names := (words.spaced (prints_name clientSpelled)).spaced (prints_name spelled)
  have same : "group of " ++ client ++ " " ++ name ++ ";" =
      "group" ++ " " ++ "of" ++ " " ++ client ++ " " ++ name ++ ";" :=
    String.toList_inj.mp (by simp)
  rw [same]
  exact writes_line 1 names.ended

theorem reprints_tunnel {text : List Terminal} {tunnel source : Multiparty.Tunnel}
    (spelled : TunnelText text tunnel) (lexical : ∀ terminal ∈ text, terminal.Lexical)
    (same : source.bare = tunnel) : ∃ text, TunnelText text tunnel ∧
      Writes [line 1 ("tunnel of " ++ source.binder.type.name ++ " " ++ source.binder.name.name ++ ";")]
        text := by
  cases spelled with
  | @mk text binder spelled =>
    obtain ⟨sameBinder, -⟩ := Multiparty.Tunnel.mk.inj same
    simp only [List.cons_append, List.forall_mem_cons, List.forall_mem_append] at lexical
    exact ⟨_, .mk spelled, writes_tunnel (reprints_binder spelled lexical.2.2.1 sameBinder)⟩

theorem reprints_group {text : List Terminal} {group source : Multiparty.Group}
    (spelled : GroupText text group) (lexical : ∀ terminal ∈ text, terminal.Lexical)
    (same : source.bare = group) : ∃ text, GroupText text group ∧
      Writes [line 1 ("group of " ++ source.client.name ++ " " ++ source.name.name ++ ";")] text := by
  cases spelled with
  | @mk client name =>
    obtain ⟨sameClient, sameName, -⟩ := Multiparty.Group.mk.inj same
    obtain rfl : source.client.name = client := congrArg Identifier.name sameClient
    obtain rfl : source.name.name = name := congrArg Identifier.name sameName
    simp only [List.forall_mem_cons] at lexical
    exact ⟨_, .mk, writes_group lexical.2.2.1 lexical.2.2.2.1⟩

section
variable {α : Type} {other : List Terminal → α → Prop}

/-- Each member of a part has a text of its own. -/
theorem spelled_members {members : List (List Terminal × (α ⊕ Multiparty.Function))}
    (texts : ∀ member ∈ members, MemberText other member.1 member.2)
    (lexical : ∀ text ∈ members.map Prod.fst, ∀ terminal ∈ text, terminal.Lexical) :
    (∀ item ∈ (members.map Prod.snd).filterMap Sum.getLeft?, Spelled other item) ∧
      ∀ function ∈ (members.map Prod.snd).filterMap Sum.getRight?, Spelled FunctionText function := by
  have spelled := spelled_pieces texts lexical
  constructor
  · intro item among
    obtain ⟨value, within, found⟩ := List.mem_filterMap.mp among
    obtain ⟨text, spells, lexical⟩ := spelled value within
    rw [Sum.getLeft?_eq_some_iff.mp found] at spells
    cases spells with
    | other spells => exact ⟨text, spells, lexical⟩
  · intro function among
    obtain ⟨value, within, found⟩ := List.mem_filterMap.mp among
    obtain ⟨text, spells, lexical⟩ := spelled value within
    rw [Sum.getRight?_eq_some_iff.mp found] at spells
    cases spells with
    | function spells => exact ⟨text, spells, lexical⟩

/-- Members of which the functions come last. -/
theorem sorted_members {others : List (List Terminal × α)}
    {functions : List (List Terminal × Multiparty.Function)}
    (otherTexts : ∀ item ∈ others, other item.1 item.2)
    (functionTexts : ∀ function ∈ functions, FunctionText function.1 function.2) :
    ∃ members : List (List Terminal × (α ⊕ Multiparty.Function)),
      (∀ member ∈ members, MemberText other member.1 member.2) ∧
      members.map Prod.fst = others.map Prod.fst ++ functions.map Prod.fst ∧
      (members.map Prod.snd).filterMap Sum.getLeft? = others.map Prod.snd ∧
      (members.map Prod.snd).filterMap Sum.getRight? = functions.map Prod.snd := by
  refine ⟨others.map (fun item => (item.1, .inl item.2)) ++
    functions.map (fun function => (function.1, .inr function.2)), ?_, ?_, ?_, ?_⟩
  · rw [List.forall_mem_append, List.forall_mem_map, List.forall_mem_map]
    exact ⟨fun item among => .other (otherTexts item among),
      fun function among => .function (functionTexts function among)⟩
  · simp [Function.comp_def]
  · simp [Function.comp_def, List.filterMap_map]
  · simp [Function.comp_def, List.filterMap_map]

/-- A printed part has the members that its items show, with the functions after all others. -/
theorem reprints_sorted {β : Type} {shown : β → String} {items : List β} {trees : List α}
    (reprint : List.Forall₂ (fun item tree => ∃ text, other text tree ∧ Writes [shown item] text) items trees)
    {functions : List Function} {functionTrees : List Multiparty.Function}
    (reprintFunctions : List.Forall₂ (fun function tree =>
      ∃ text, FunctionText text tree ∧ Writes function.lines text) functions functionTrees)
    {header : String} {head : List Terminal} (heads : Prints header head) :
    ∃ sorted : List (List Terminal × (α ⊕ Multiparty.Function)),
      (∀ member ∈ sorted, MemberText other member.1 member.2) ∧
      (sorted.map Prod.snd).filterMap Sum.getLeft? = trees ∧
      (sorted.map Prod.snd).filterMap Sum.getRight? = functionTrees ∧
      Writes (partLines (header ++ " \x7b") (items.map shown) functions)
        (head ++ .mark .openCurly :: (sorted.map Prod.fst).flatten ++ [.mark .closeCurly]) := by
  obtain ⟨others, rfl, itemTexts, writesItems⟩ := pieces_of_each reprint
  obtain ⟨written, rfl, functionTexts, writesFunctions⟩ := pieces_of_each reprintFunctions
  obtain ⟨sorted, sortedTexts, pieces, lefts, rights⟩ := sorted_members itemTexts functionTexts
  refine ⟨sorted, sortedTexts, lefts, rights, ?_⟩
  rw [pieces, List.flatten_append]
  exact writes_part heads (List.forall₂_map_left_iff.mpr writesItems) writesFunctions

/-- A printed part has the members that it was typed from. -/
theorem reprints_members {σ τ : Type} {erase : σ → α} {derives : List σ → σ → τ → Prop}
    (shown : τ → String) {members : List (List Terminal × (α ⊕ Multiparty.Function))}
    (texts : ∀ member ∈ members, MemberText other member.1 member.2)
    (inside : ∀ terminal ∈ (members.map Prod.fst).flatten, terminal.Lexical) {items : List σ}
    {typedItems : List τ} (sameItems : items.map erase = (members.map Prod.snd).filterMap Sum.getLeft?)
    (turn : InTurn derives [] items typedItems)
    (each : ∀ before item typed text, other text (erase item) →
      (∀ terminal ∈ text, terminal.Lexical) → derives before item typed →
      ∃ text, other text (erase item) ∧ Writes [shown typed] text)
    {owner : String} {holdings : Holdings} {functions : List Multiparty.Function}
    {typedFunctions : List Function}
    (sameFunctions : functions.map Function.bare = (members.map Prod.snd).filterMap Sum.getRight?)
    (derive : InTurn (FunctionDerives options owner holdings) [] functions typedFunctions)
    {header : String} {head : List Terminal} (heads : Prints header head) :
    ∃ sorted : List (List Terminal × (α ⊕ Multiparty.Function)),
      (∀ member ∈ sorted, MemberText other member.1 member.2) ∧
      (sorted.map Prod.snd).filterMap Sum.getLeft? = items.map erase ∧
      (sorted.map Prod.snd).filterMap Sum.getRight? = functions.map Function.bare ∧
      Writes (partLines (header ++ " \x7b") (typedItems.map shown) typedFunctions)
        (head ++ .mark .openCurly :: (sorted.map Prod.fst).flatten ++ [.mark .closeCurly]) := by
  obtain ⟨spelledItems, spelledFunctions⟩ := spelled_members texts
    fun text among terminal within => inside terminal (List.mem_flatten_of_mem among within)
  rw [← sameItems] at spelledItems
  rw [← sameFunctions] at spelledFunctions
  have functionsShown := derive.shows spelledFunctions
    fun _ _ _ _ spelled lexical derive => reprints_function spelled lexical rfl derive
  exact reprints_sorted (turn.shows spelledItems each) functionsShown heads

end

/-- The first line of a part, as far as its name. -/
theorem prints_part {word name : String} {kind : Kind} (known : (word, kind) ∈ reservedWords)
    (spelled : IsName name) : Prints ("declare" ++ " " ++ word ++ " " ++ name)
      [.mark .declareWord, .mark kind, .name name] :=
  ((prints_reserved (show ("declare", Kind.declareWord) ∈ reservedWords by decide)).spaced
    (prints_reserved known)).spaced (prints_name spelled)

theorem reprints_client {text : List Terminal} {client : Multiparty.Client} (spelled : ClientText text client)
    (lexical : ∀ terminal ∈ text, terminal.Lexical) {before : List Multiparty.Client}
    {source : Multiparty.Client} {typed : Client} (same : source.bare = client)
    (derive : ClientDerives options before source typed) :
    ∃ text, ClientText text client ∧ Writes typed.lines text := by
  cases spelled with
  | mk texts =>
    obtain ⟨sameName, sameTunnels, sameFunctions, -⟩ := Multiparty.Client.mk.inj same
    simp only [List.cons_append, List.forall_mem_cons, List.forall_mem_append] at lexical
    obtain ⟨-, -, named, -, inside, -⟩ := lexical
    have typedName : typed.name = source.name.name := (Prod.mk.inj derive.result).1
    rw [← (Identifier.mk.inj sameName).1, ← typedName] at named
    obtain ⟨sorted, sortedTexts, tunnels, functions, writes⟩ :=
      reprints_members (fun tunnel => line 1 ("tunnel of " ++ tunnel.type.name ++ " " ++ tunnel.name ++ ";"))
        texts inside sameTunnels derive.tunnels
        (by
          intro before tunnel typed text spelled lexical derive
          rw [derive.result]
          exact reprints_tunnel spelled lexical rfl)
        sameFunctions derive.functions
        (prints_part (show ("client", Kind.clientWord) ∈ reservedWords by decide) named)
    rw [← sameTunnels, ← tunnels, ← sameFunctions, ← functions, ← sameName, Identifier.bare, ← typedName]
    exact ⟨_, .mk sortedTexts, writes⟩

theorem reprints_server {text : List Terminal} {server : Multiparty.Server} (spelled : ServerText text server)
    (lexical : ∀ terminal ∈ text, terminal.Lexical) {clients : List Multiparty.Client}
    {source : Multiparty.Server} {typed : Server} (same : source.bare = server)
    (derive : ServerDerives options clients source typed) :
    ∃ text, ServerText text server ∧ Writes typed.lines text := by
  cases spelled with
  | mk texts =>
    obtain ⟨sameName, sameGroups, sameFunctions, -⟩ := Multiparty.Server.mk.inj same
    simp only [List.cons_append, List.forall_mem_cons, List.forall_mem_append] at lexical
    obtain ⟨-, -, named, -, inside, -⟩ := lexical
    have typedName : typed.name = source.name.name := (Prod.mk.inj derive.result).1
    rw [← (Identifier.mk.inj sameName).1, ← typedName] at named
    obtain ⟨sorted, sortedTexts, groups, functions, writes⟩ :=
      reprints_members (fun group => line 1 ("group of " ++ group.client ++ " " ++ group.name ++ ";"))
        texts inside sameGroups derive.groups
        (by
          intro before group typed text spelled lexical derive
          rw [derive.result]
          exact reprints_group spelled lexical rfl)
        sameFunctions derive.functions
        (prints_part (show ("server", Kind.serverWord) ∈ reservedWords by decide) named)
    rw [← sameGroups, ← groups, ← sameFunctions, ← functions, ← sameName, Identifier.bare, ← typedName]
    exact ⟨_, .mk sortedTexts, writes⟩

theorem writes_clients {clients : List Client} {texts : List (List Terminal)}
    (writes : List.Forall₂ (fun client text => Writes client.lines text) clients texts) :
    Writes (clients.flatMap fun client => client.lines ++ [""]) texts.flatten := by
  induction writes with
  | nil => exact writes_nil
  | cons writes _ ih =>
    have client := writes.append prints_nothing.writes
    rw [List.append_nil] at client
    exact client.append ih

/-- Every program that typechecks prints as a text of the tree that it was written with. -/
theorem reprints_program {text : List Terminal} {program : Multiparty.Program}
    (spelled : ProgramText text program) (lexical : ∀ terminal ∈ text, terminal.Lexical)
    {source : Multiparty.Program} {typed : Program} (same : source.bare = program)
    (derive : ProgramDerives options source typed) :
    ∃ text, ProgramText text program ∧ Writes typed.lines text := by
  cases spelled with
  | @mk clients serverText server texts spelled =>
    obtain ⟨sameClients, sameServer, -⟩ := Multiparty.Program.mk.inj same
    rw [List.forall_mem_append] at lexical
    have spelledClients := spelled_pieces texts fun text among terminal within =>
      lexical.1 terminal (List.mem_flatten_of_mem among within)
    rw [← sameClients] at spelledClients
    obtain ⟨shown, trees, clientTexts, writes⟩ := pieces_of_each (derive.clients.shows spelledClients
      fun _ _ _ _ spelled lexical derive => reprints_client spelled lexical rfl derive)
    obtain ⟨serverText, spelledServer, writesServer⟩ :=
      reprints_server spelled lexical.2 sameServer derive.server
    rw [← sameClients, ← trees]
    exact ⟨_, .mk clientTexts spelledServer, (writes_clients writes).append writesServer⟩

end Typed
end Multiparty
