import Multiparty.Proofs.Erasure
import Multiparty.Proofs.RoundTrip

/-! Typed trees that were never read from a text, such as trees made by hand. What can be written is printed as a text
of its tree, unless an `else` in it would go to another `if`: the grammar gives no text to such a tree. -/

namespace Multiparty
open Grammar Token

namespace Typed

mutual

theorem Expr.reprints (typed : Expr) (writable : typed.Writable) : typed.Reprints typed.erased := by
  cases typed with
  | int value mark => exact reprints_int writable
  | bool value mark => exact reprints_bool value
  | string value mark => exact reprints_string value
  | symbol name mark => exact reprints_symbol writable
  | binary operator left right mark =>
    obtain ⟨writableLeft, writableRight⟩ := writable
    exact reprints_binary (Expr.reprints left writableLeft) (Expr.reprints right writableRight)
  | not operand mark => exact reprints_not (Expr.reprints operand writable)
  | call function arguments mark =>
    obtain ⟨spelled, writable⟩ := writable
    exact reprints_call spelled (reprint_all arguments writable)
  | invoke target client function arguments mark =>
    obtain ⟨targetSpelled, spelled, ordinary, writable⟩ := writable
    exact reprints_invoke targetSpelled spelled ordinary (reprint_all arguments writable)
  | put tunnel value mark =>
    obtain ⟨spelled, writable⟩ := writable
    exact reprints_put spelled (Expr.reprints value writable)
  | read tunnel reading mark => exact reprints_read writable reading
  | remotePut target client tunnel value mark =>
    obtain ⟨targetSpelled, spelled, writable⟩ := writable
    exact reprints_remotePut targetSpelled spelled (Expr.reprints value writable)
  | remoteRead target client tunnel reading mark =>
    obtain ⟨targetSpelled, spelled⟩ := writable
    exact reprints_remoteRead targetSpelled spelled reading
  | reveal body names mark =>
    obtain ⟨writable, nonempty, spelled⟩ := writable
    exact reprints_reveal (Expr.reprints body writable) nonempty spelled
  | readInt mark => exact reprints_readInt
termination_by structural typed

theorem reprint_all (arguments : List Expr) (writable : allWritable arguments) :
    Reprint arguments (allErased arguments) := by
  cases arguments with
  | nil => exact reprint_nil
  | cons first rest =>
    obtain ⟨writable, others⟩ := writable
    exact .cons (Expr.reprints first writable) (reprint_all rest others)
termination_by structural arguments

end

theorem reprints_bareBinder {type : Ty} {name : String} (spelled : IsName name) (written : type.isWord) :
    ∃ text, BinderText text (bareBinder type name) ∧ Prints (type.name ++ " " ++ name) text := by
  obtain ⟨word, known⟩ := Ty.word_of_isWord written
  exact ⟨_, .mk known, (prints_type known).spaced (prints_name spelled)⟩

mutual

theorem Stmt.reprints (typed : Stmt) (writable : typed.Writable) (closed : typed.erased.Closed) :
    typed.Reprints typed.erased := by
  cases typed with
  | declaration name type initial span =>
    obtain ⟨spelled, written, writable⟩ := writable
    obtain ⟨text, binder, prints⟩ := reprints_bareBinder spelled written
    cases initial with
    | none => exact reprints_declaration binder prints
    | some value => exact reprints_initialised binder prints (value.reprints (writable value rfl))
  | assign target value span =>
    obtain ⟨spelled, writable⟩ := writable
    exact reprints_assign spelled (value.reprints writable)
  | expression value span => exact reprints_expressionStatement (value.reprints writable)
  | display value span => exact reprints_display (value.reprints writable)
  | ifThen condition body span =>
    obtain ⟨guard, writable⟩ := writable
    exact reprints_ifThen (condition.reprints guard) (Stmt.reprints body writable closed)
  | ifElse condition body otherwise span =>
    obtain ⟨guard, writable, writableElse⟩ := writable
    obtain ⟨whole, closed, closedElse⟩ := closed
    exact reprints_ifElse (condition.reprints guard) (Stmt.reprints body writable closed) whole
      (Stmt.reprints otherwise writableElse closedElse)
  | whileLoop condition body span =>
    obtain ⟨guard, writable⟩ := writable
    exact reprints_whileLoop (condition.reprints guard) (Stmt.reprints body writable closed)
  | forEach name group client body span =>
    obtain ⟨spelled, groupSpelled, writable⟩ := writable
    obtain ⟨text, binder, prints⟩ := reprints_bareBinder spelled (show Ty.client.isWord by rfl)
    exact reprints_forEach binder prints groupSpelled (Stmt.reprints body writable closed)
  | returns value type span =>
    cases value with
    | none => exact reprints_returnsNothing
    | some value => exact reprints_returns (value.reprints (writable value rfl))
  | block body span => exact reprints_block (reprint_body body writable closed)
termination_by structural typed

theorem reprint_body (body : List Stmt) (writable : allStmtsWritable body)
    (closed : allClosed (allStmtsErased body)) : ReprintStmts body (allStmtsErased body) := by
  cases body with
  | nil => exact reprintStmts_nil
  | cons first rest =>
    obtain ⟨writable, others⟩ := writable
    obtain ⟨closed, closedOthers⟩ := closed
    exact .cons (Stmt.reprints first writable closed) (reprint_body rest others closedOthers)
termination_by structural body

end

/-- What each item shows of its tree, in the order of the items. -/
theorem forall₂_of_each {α β : Type} {tree : α → β} {relates : α → β → Prop} {items : List α}
    (each : ∀ item ∈ items, relates item (tree item)) : List.Forall₂ relates items (items.map tree) :=
  List.forall₂_map_right_iff.mpr (List.forall₂_same.mpr each)

theorem Function.reprints {typed : Function} (writable : typed.Writable) (closed : typed.erased.Closed) :
    ∃ text, FunctionText text typed.erased ∧ Writes typed.lines text := by
  obtain ⟨word, known⟩ := Ty.word_of_isWord writable.returnType
  have parameters : List.Forall₂ (fun (parameter : Parameter) binder => ∃ text, BinderText text binder ∧
      Prints (parameter.type.name ++ " " ++ parameter.name) text)
      typed.parameters (typed.parameters.map Parameter.erased) := by
    apply forall₂_of_each
    intro parameter among
    obtain ⟨spelled, written⟩ := writable.parameters parameter among
    exact reprints_bareBinder spelled written
  exact reprints_function_of_parts known writable.name parameters
    (reprint_body typed.body writable.body closed)

theorem functions_reprint {functions : List Function} (writable : ∀ function ∈ functions, function.Writable)
    (closed : ∀ function ∈ functions.map Function.erased, function.Closed) :
    List.Forall₂ (fun function tree => ∃ text, FunctionText text tree ∧ Writes function.lines text)
      functions (functions.map Function.erased) :=
  forall₂_of_each fun function among => Function.reprints (writable function among)
    (closed function.erased (List.mem_map_of_mem among))

theorem Client.reprints {typed : Client} (writable : typed.Writable)
    (closed : ∀ function ∈ typed.erased.functions, function.Closed) :
    ∃ text, ClientText text typed.erased ∧ Writes typed.lines text := by
  have tunnels : List.Forall₂ (fun (tunnel : Tunnel) tree => ∃ text, TunnelText text tree ∧
      Writes [line 1 ("tunnel of " ++ tunnel.type.name ++ " " ++ tunnel.name ++ ";")] text)
      typed.tunnels (typed.tunnels.map Tunnel.erased) := by
    apply forall₂_of_each
    intro tunnel among
    obtain ⟨spelled, written⟩ := writable.tunnels tunnel among
    obtain ⟨text, binder, prints⟩ := reprints_bareBinder spelled written
    exact ⟨_, .mk binder, writes_tunnel prints⟩
  obtain ⟨sorted, texts, sortedTunnels, sortedFunctions, writes⟩ :=
    reprints_sorted tunnels (functions_reprint writable.functions closed)
      (prints_part (show ("client", Kind.clientWord) ∈ reservedWords by decide) writable.name)
  rw [Client.erased, ← sortedTunnels, ← sortedFunctions]
  exact ⟨_, .mk texts, writes⟩

theorem Server.reprints {typed : Server} (writable : typed.Writable)
    (closed : ∀ function ∈ typed.erased.functions, function.Closed) :
    ∃ text, ServerText text typed.erased ∧ Writes typed.lines text := by
  have groups : List.Forall₂ (fun (group : Group) tree => ∃ text, GroupText text tree ∧
      Writes [line 1 ("group of " ++ group.client ++ " " ++ group.name ++ ";")] text)
      typed.groups (typed.groups.map Group.erased) := by
    apply forall₂_of_each
    intro group among
    obtain ⟨clientSpelled, spelled⟩ := writable.groups group among
    exact ⟨_, .mk, writes_group clientSpelled spelled⟩
  obtain ⟨sorted, texts, sortedGroups, sortedFunctions, writes⟩ :=
    reprints_sorted groups (functions_reprint writable.functions closed)
      (prints_part (show ("server", Kind.serverWord) ∈ reservedWords by decide) writable.name)
  rw [Server.erased, ← sortedGroups, ← sortedFunctions]
  exact ⟨_, .mk texts, writes⟩

theorem Program.reprints {typed : Program} (writable : typed.Writable) (closed : typed.erased.Closed) :
    ∃ text, ProgramText text typed.erased ∧ Writes typed.lines text := by
  have clients : List.Forall₂ (fun client tree => ∃ text, ClientText text tree ∧ Writes client.lines text)
      typed.clients (typed.clients.map Client.erased) :=
    forall₂_of_each fun client among => Client.reprints (writable.clients client among)
      (closed.1 client.erased (List.mem_map_of_mem among))
  obtain ⟨shown, trees, texts, writes⟩ := pieces_of_each clients
  obtain ⟨serverText, spelled, writesServer⟩ := Server.reprints writable.server closed.2
  rw [Program.erased, ← trees]
  exact ⟨_, .mk texts spelled, (writes_clients writes).append writesServer⟩

end Typed

namespace Grammar

/-- Every text closes its `if`s: the tree of a text has no `else` that belongs elsewhere. -/
theorem StmtText.closed {text : List Terminal} {stmt : Stmt} (spelled : StmtText text stmt) :
    stmt.Closed := by
  induction spelled with
  | declaration | initialised | assign | expression | display | returnsNothing | returns => trivial
  | ifThen _ _ ih | whileLoop _ _ ih | forEach _ _ ih => exact ih
  | ifElse _ _ whole _ ih ihElse => exact ⟨whole, ih, ihElse⟩
  | block _ ih => exact (allClosed_iff _).mpr (List.forall_mem_map.mpr ih)

theorem FunctionText.closed {text : List Terminal} {function : Function}
    (spelled : FunctionText text function) : function.Closed := by
  cases spelled with
  | mk _ _ _ stmts =>
    exact (allClosed_iff _).mpr (List.forall_mem_map.mpr fun stmt among => (stmts stmt among).closed)

theorem members_closed {α : Type} {other : List Terminal → α → Prop}
    {members : List (List Terminal × (α ⊕ Function))}
    (texts : ∀ member ∈ members, MemberText other member.1 member.2) :
    ∀ function ∈ (members.map Prod.snd).filterMap Sum.getRight?, function.Closed := by
  intro function among
  obtain ⟨value, within, found⟩ := List.mem_filterMap.mp among
  obtain ⟨member, inside, rfl⟩ := List.mem_map.mp within
  have spelled := texts member inside
  rw [Sum.getRight?_eq_some_iff.mp found] at spelled
  cases spelled with
  | function spelled => exact spelled.closed

theorem ClientText.closed {text : List Terminal} {client : Client} (spelled : ClientText text client) :
    ∀ function ∈ client.functions, function.Closed := by
  cases spelled with
  | mk texts => exact members_closed texts

theorem ServerText.closed {text : List Terminal} {server : Server} (spelled : ServerText text server) :
    ∀ function ∈ server.functions, function.Closed := by
  cases spelled with
  | mk texts => exact members_closed texts

theorem ProgramText.closed {text : List Terminal} {program : Program} (spelled : ProgramText text program) :
    program.Closed := by
  cases spelled with
  | mk clients server =>
    exact ⟨List.forall_mem_map.mpr fun client among => (clients client among).closed, server.closed⟩

end Grammar

/-- A program that can be written parses back from its printed text just when each `else` in it stays with its `if`. -/
theorem parses_back_iff_closed {program : Typed.Program} (writable : program.Writable) (file : String) :
    (∃ parsed, parseSource program.print file = .ok parsed ∧ parsed.bare = program.erased) ↔
      program.erased.Closed := by
  constructor
  · rintro ⟨parsed, ran, same⟩
    obtain ⟨text, spelled, -⟩ := spelled_of_parseSource ran
    exact same ▸ spelled.closed
  · intro closed
    obtain ⟨text, spelled, writes⟩ := Typed.Program.reprints writable closed
    have lexes : Lexes program.print.toList text := by
      have whole := writes [] [] .nil
      rwa [List.append_nil, List.append_nil] at whole
    exact parseSource_of_lexes lexes spelled file

/-- A tree made by hand: nothing in it has a type. -/
def sending (text : String) : Typed.Stmt :=
  .expression (.remotePut "peer" "" "inbox" (.string text ⟨.none, .nowhere⟩) ⟨.none, .nowhere⟩) .nowhere

def dangling : Typed.Stmt :=
  .ifThen (.symbol "ready" ⟨.none, .nowhere⟩) (sending "\"yes\"") .nowhere

/-- A program of one function, with `body` before an `else`. -/
def guarding (body : Typed.Stmt) : Typed.Program :=
  let guarded : Typed.Stmt := .ifElse (.symbol "ready" ⟨.none, .nowhere⟩) body (sending "no\n") .nowhere
  ⟨[], ⟨"Main", [], [⟨.void, "run", [], [guarded], .nowhere⟩], .nowhere⟩, .nowhere⟩

theorem sending_writable (text : String) : (sending text).Writable :=
  ⟨⟨by decide, by decide⟩, ⟨by decide, by decide⟩, trivial⟩

theorem dangling_writable : dangling.Writable :=
  ⟨⟨by decide, by decide⟩, sending_writable _⟩

theorem guarding_writable {body : Typed.Stmt} (writable : body.Writable) : (guarding body).Writable := by
  have main : IsName "Main" := ⟨by decide, by decide⟩
  have run : IsName "run" := ⟨by decide, by decide⟩
  have ready : IsName "ready" := ⟨by decide, by decide⟩
  refine ⟨nofun, main, nofun, List.forall_mem_singleton.mpr ?_⟩
  exact ⟨run, rfl, nofun, ⟨ready, writable, sending_writable _⟩, trivial⟩

/-- In braces the `if` parses back. Without them it takes the `else` for itself. -/
theorem parses_back_guarding :
    (∃ parsed, parseSource (guarding (.block [dangling] .nowhere)).print "main" = .ok parsed ∧
      parsed.bare = (guarding (.block [dangling] .nowhere)).erased) ∧
    ¬ ∃ parsed, parseSource (guarding dangling).print "main" = .ok parsed ∧
      parsed.bare = (guarding dangling).erased := by
  constructor
  · have braced : (Typed.Stmt.block [dangling] .nowhere).Writable := ⟨dangling_writable, trivial⟩
    apply (parses_back_iff_closed (guarding_writable braced) "main").mpr
    exact ⟨nofun, List.forall_mem_singleton.mpr ⟨⟨rfl, ⟨trivial, trivial⟩, trivial⟩, trivial⟩⟩
  · rw [parses_back_iff_closed (guarding_writable dangling_writable) "main"]
    rintro ⟨-, closed⟩
    obtain ⟨⟨opens, -⟩, -⟩ := closed _ List.mem_cons_self
    cases opens

end Multiparty
