import Multiparty.Proofs.Consumption
import Multiparty.Proofs.StreamPlaces
import Multiparty.Tree.Basic

/-! The outline of a tree: for each node and each name its span, with the spans of what stands directly within it.
An outline fits a stream of tokens if each span stretches over whole tokens, and if what a node holds lies within it,
one after the other. -/

namespace Multiparty

/-- What a node or a name takes of the source. Each row holds the spans of children in their order. -/
structure Outline where
  span : Span
  rows : List (List Span)

def Identifier.outline (name : Identifier) : Outline :=
  ⟨name.span, []⟩

/-- The outlines of a call and of what it names, a function or a tunnel. -/
def Identifier.callOutlines (name : Identifier) (arguments : List Span) (callSpan : Span) : List Outline :=
  [⟨callSpan, [name.span :: arguments]⟩, name.outline]

def Binder.outlines (binder : Binder) : List Outline :=
  [⟨binder.span, [[binder.name.span]]⟩, binder.name.outline]

mutual

def Expr.outlines : Expr → List Outline
  | .int _ span | .bool _ span | .string _ span | .symbol _ span | .readInt span => [⟨span, []⟩]
  | .binary _ left right span => ⟨span, [[left.span, right.span]]⟩ :: (left.outlines ++ right.outlines)
  | .not operand span => ⟨span, [[operand.span]]⟩ :: operand.outlines
  | .call function arguments callSpan span =>
    ⟨span, [[callSpan]]⟩ :: (function.callOutlines (arguments.map Expr.span) callSpan ++ allExprOutlines arguments)
  | .invoke target function arguments callSpan span =>
    ⟨span, [[target.span, callSpan]]⟩ :: target.outline ::
      (function.callOutlines (arguments.map Expr.span) callSpan ++ allExprOutlines arguments)
  | .put tunnel value callSpan span =>
    ⟨span, [[callSpan]]⟩ :: (tunnel.callOutlines [value.span] callSpan ++ value.outlines)
  | .read tunnel _ callSpan span => ⟨span, [[callSpan]]⟩ :: tunnel.callOutlines [] callSpan
  | .remotePut target tunnel value callSpan span =>
    ⟨span, [[target.span, callSpan]]⟩ :: target.outline :: (tunnel.callOutlines [value.span] callSpan ++ value.outlines)
  | .remoteRead target tunnel _ callSpan span =>
    ⟨span, [[target.span, callSpan]]⟩ :: target.outline :: tunnel.callOutlines [] callSpan
  | .reveal body names span =>
    ⟨span, [body.span :: names.map Identifier.span]⟩ :: (body.outlines ++ names.map Identifier.outline)

def allExprOutlines : List Expr → List Outline
  | [] => []
  | first :: rest => first.outlines ++ allExprOutlines rest

end

def Assignment.outlines (assignment : Assignment) : List Outline :=
  ⟨assignment.span, [[assignment.target.span, assignment.value.span]]⟩ :: assignment.target.outline ::
    assignment.value.outlines

mutual

/-- The initial value of a declaration shares the declared name with the binder, so they are in two rows. -/
def Stmt.outlines : Stmt → List Outline
  | .declaration binder initial span =>
    ⟨span, [[binder.span], initial.toList.map Assignment.span]⟩ ::
      (binder.outlines ++ initial.toList.flatMap Assignment.outlines)
  | .assign assignment span => ⟨span, [[assignment.span]]⟩ :: assignment.outlines
  | .expression value span | .display value span => ⟨span, [[value.span]]⟩ :: value.outlines
  | .ifThen condition body span | .whileLoop condition body span =>
    ⟨span, [[condition.span, body.span]]⟩ :: (condition.outlines ++ body.outlines)
  | .ifElse condition body otherwise span =>
    ⟨span, [[condition.span, body.span, otherwise.span]]⟩ ::
      (condition.outlines ++ (body.outlines ++ otherwise.outlines))
  | .forEach binder group body span =>
    ⟨span, [[binder.span, group.span, body.span]]⟩ :: (binder.outlines ++ group.outline :: body.outlines)
  | .returns value span => ⟨span, [value.toList.map Expr.span]⟩ :: value.toList.flatMap Expr.outlines
  | .block body span => ⟨span, [body.map Stmt.span]⟩ :: allStmtOutlines body

def allStmtOutlines : List Stmt → List Outline
  | [] => []
  | first :: rest => first.outlines ++ allStmtOutlines rest

end

def Function.outlines (function : Function) : List Outline :=
  ⟨function.span, [function.name.span :: (function.parameters.map Binder.span ++ function.body.map Stmt.span)]⟩ ::
    function.name.outline :: (function.parameters.flatMap Binder.outlines ++ allStmtOutlines function.body)

def Tunnel.outlines (tunnel : Tunnel) : List Outline :=
  ⟨tunnel.span, [[tunnel.binder.span]]⟩ :: tunnel.binder.outlines

def Group.outlines (group : Group) : List Outline :=
  [⟨group.span, [[group.client.span, group.name.span]]⟩, group.client.outline, group.name.outline]

/-- Tunnels and functions stand in any order, so they are in two rows. -/
def Client.outlines (client : Client) : List Outline :=
  ⟨client.span, [client.name.span :: client.tunnels.map Tunnel.span,
      client.name.span :: client.functions.map Function.span]⟩ ::
    client.name.outline :: (client.tunnels.flatMap Tunnel.outlines ++ client.functions.flatMap Function.outlines)

def Server.outlines (server : Server) : List Outline :=
  ⟨server.span, [server.name.span :: server.groups.map Group.span,
      server.name.span :: server.functions.map Function.span]⟩ ::
    server.name.outline :: (server.groups.flatMap Group.outlines ++ server.functions.flatMap Function.outlines)

def Program.outlines (program : Program) : List Outline :=
  ⟨program.span, [program.clients.map Client.span ++ [program.server.span]]⟩ ::
    (program.clients.flatMap Client.outlines ++ program.server.outlines)

theorem allExprOutlines_eq (arguments : List Expr) :
    allExprOutlines arguments = arguments.flatMap Expr.outlines := by
  induction arguments with
  | nil => rfl
  | cons first rest ih => rw [allExprOutlines, ih, List.flatMap_cons]

theorem allStmtOutlines_eq (stmts : List Stmt) : allStmtOutlines stmts = stmts.flatMap Stmt.outlines := by
  induction stmts with
  | nil => rfl
  | cons first rest ih => rw [allStmtOutlines, ih, List.flatMap_cons]

/-- The span starts with the token `first` and ends with the one before `stop`. The last token of the stream is not
among them. -/
structure Span.Stretches (stream : List Token) (first stop : Nat) (span : Span) : Prop where
  proper : first < stop
  inside : stop < stream.length
  begins : ∃ token, stream[first]? = some token ∧ token.span.start = span.start
  ends : ∃ token, stream[stop - 1]? = some token ∧ token.span.stop = span.stop

/-- From the token `low` to the one before `high`, the spans stretch one after the other. -/
inductive Row (stream : List Token) (high : Nat) : Nat → List Span → Prop
  | nil {low : Nat} : low ≤ high → Row stream high low []
  | cons {low first stop : Nat} {span : Span} {rest : List Span} : low ≤ first →
    span.Stretches stream first stop → Row stream high stop rest → Row stream high low (span :: rest)

/-- What the node holds lies between its first token and its last, in each of the rows. -/
def Outline.Fits (stream : List Token) (outline : Outline) : Prop :=
  ∃ first stop, outline.span.Stretches stream first stop ∧
    ∀ row ∈ outline.rows, Row stream stop first row

def Fit (stream : List Token) (outlines : List Outline) : Prop :=
  ∀ outline ∈ outlines, outline.Fits stream

section
variable {stream : List Token} {first stop low high lower higher middle : Nat} {span other : Span}
  {spans others : List Span}

theorem Span.Stretches.join {next last : Nat} (before : span.Stretches stream first stop)
    (after : other.Stretches stream next last) (order : first ≤ next) :
    (span.join other).Stretches stream first last where
  proper := Nat.lt_of_le_of_lt order after.proper
  inside := after.inside
  begins := before.begins
  ends := after.ends

theorem Row.le (row : Row stream high low spans) : low ≤ high := by
  induction row with
  | nil order => exact order
  | cons order stretches _ ih => exact Nat.le_trans order (Nat.le_trans (Nat.le_of_lt stretches.proper) ih)

theorem Row.weaken (row : Row stream high low spans) (below : lower ≤ low) (above : high ≤ higher) :
    Row stream higher lower spans := by
  induction row generalizing lower with
  | nil order => exact .nil (Nat.le_trans below (Nat.le_trans order above))
  | cons order stretches _ ih => exact .cons (Nat.le_trans below order) stretches (ih (Nat.le_refl _))

theorem Row.append (before : Row stream middle low spans) (after : Row stream high middle others) :
    Row stream high low (spans ++ others) := by
  induction before with
  | nil order => exact after.weaken order (Nat.le_refl high)
  | cons order stretches _ ih => exact .cons order stretches ih

theorem Span.Stretches.row (stretches : span.Stretches stream first stop) : Row stream stop first [span] :=
  .cons (Nat.le_refl first) stretches (.nil (Nat.le_refl stop))

theorem Row.exists_stretches (row : Row stream high low spans) (among : span ∈ spans) :
    ∃ first stop, low ≤ first ∧ span.Stretches stream first stop ∧ stop ≤ high := by
  induction row with
  | nil => cases among
  | cons order stretches rest ih =>
    rcases List.mem_cons.mp among with rfl | among
    · exact ⟨_, _, order, stretches, rest.le⟩
    · obtain ⟨first, stop, after, further, before⟩ := ih among
      exact ⟨first, stop, Nat.le_trans order (Nat.le_trans (Nat.le_of_lt stretches.proper) after), further, before⟩

theorem Row.sublist (row : Row stream high low spans) (fewer : others.Sublist spans) :
    Row stream high low others := by
  induction row generalizing others with
  | nil order =>
    cases fewer
    exact .nil order
  | cons order stretches rest ih =>
    cases fewer with
    | cons _ fewer => exact (ih fewer).weaken (Nat.le_trans order (Nat.le_of_lt stretches.proper)) (Nat.le_refl _)
    | cons_cons _ fewer => exact .cons order stretches (ih fewer)

theorem Outline.fits_of_row {row : List Span} (stretches : span.Stretches stream first stop)
    (within : Row stream stop first row) : (⟨span, [row]⟩ : Outline).Fits stream :=
  ⟨first, stop, stretches, List.forall_mem_singleton.mpr within⟩

theorem Outline.fits_of_stretches (stretches : span.Stretches stream first stop) :
    (⟨span, []⟩ : Outline).Fits stream :=
  ⟨first, stop, stretches, nofun⟩

@[simp] theorem fit_nil : Fit stream [] :=
  nofun

@[simp] theorem fit_cons {outline : Outline} {outlines : List Outline} :
    Fit stream (outline :: outlines) ↔ outline.Fits stream ∧ Fit stream outlines :=
  List.forall_mem_cons

@[simp] theorem fit_append {before after : List Outline} :
    Fit stream (before ++ after) ↔ Fit stream before ∧ Fit stream after :=
  List.forall_mem_append

@[simp] theorem fit_flatMap {α : Type} {items : List α} {outlines : α → List Outline} :
    Fit stream (items.flatMap outlines) ↔ ∀ item ∈ items, Fit stream (outlines item) := by
  simp only [Fit, List.mem_flatMap]
  exact ⟨fun fit item among outline inside => fit outline ⟨item, among, inside⟩,
    fun fit outline ⟨item, among, inside⟩ => fit item among outline inside⟩

/-- A name, or a node without children. -/
theorem Span.Stretches.fit (stretches : span.Stretches stream first stop) : Fit stream [⟨span, []⟩] :=
  fit_cons.mpr ⟨Outline.fits_of_stretches stretches, fit_nil⟩

theorem Identifier.callOutlines_fit {name : Identifier} {arguments : List Span} {callSpan : Span}
    (named : name.span.Stretches stream first middle) (whole : callSpan.Stretches stream first stop)
    (listed : Row stream stop middle arguments) : Fit stream (name.callOutlines arguments callSpan) := by
  rw [callOutlines, fit_cons, fit_cons]
  exact ⟨Outline.fits_of_row whole (.cons (Nat.le_refl first) named listed), Outline.fits_of_stretches named, fit_nil⟩

/-- A call within an expression that names the target of the call before it. -/
theorem Identifier.targetedOutlines_fit {target name : Identifier} {arguments : List Span} {callSpan : Span}
    {second : Nat} (targeted : target.span.Stretches stream first middle) (order : middle ≤ second)
    (named : name.span.Stretches stream second low) (whole : span.Stretches stream first stop)
    (call : callSpan.Stretches stream second stop) (listed : Row stream stop low arguments) :
    Fit stream (⟨span, [[target.span, callSpan]]⟩ :: target.outline :: name.callOutlines arguments callSpan) := by
  rw [fit_cons, fit_cons]
  exact ⟨Outline.fits_of_row whole (.cons (Nat.le_refl first) targeted (call.row.weaken order (Nat.le_refl stop))),
    Outline.fits_of_stretches targeted, Identifier.callOutlines_fit named call listed⟩

end

end Multiparty
