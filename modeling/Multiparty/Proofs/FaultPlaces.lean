import Multiparty.Proofs.TypingFaults

/-! Where a program is at fault. Whatever rule it breaks, the place that is reported is the start of one of its nodes
or names. -/

namespace Multiparty

/-! The spans of a tree: of its nodes, of the calls in them and of the names. -/

def Binder.spans (binder : Binder) : List Span :=
  [binder.span, binder.name.span]

mutual

def Expr.spans : Expr → List Span
  | .int _ span | .bool _ span | .string _ span | .symbol _ span | .readInt span => [span]
  | .binary _ left right span => span :: (left.spans ++ right.spans)
  | .not operand span => span :: operand.spans
  | .call function arguments callSpan span => span :: callSpan :: function.span :: allExprSpans arguments
  | .invoke target function arguments callSpan span =>
    span :: target.span :: callSpan :: function.span :: allExprSpans arguments
  | .put tunnel value callSpan span => span :: callSpan :: tunnel.span :: value.spans
  | .read tunnel _ callSpan span => [span, callSpan, tunnel.span]
  | .remotePut target tunnel value callSpan span =>
    span :: target.span :: callSpan :: tunnel.span :: value.spans
  | .remoteRead target tunnel _ callSpan span => [span, target.span, callSpan, tunnel.span]
  | .reveal body names span => span :: (body.spans ++ names.map Identifier.span)

def allExprSpans : List Expr → List Span
  | [] => []
  | first :: rest => first.spans ++ allExprSpans rest

end

def Assignment.spans (assignment : Assignment) : List Span :=
  assignment.span :: assignment.target.span :: assignment.value.spans

def initialSpans : Option Assignment → List Span
  | none => []
  | some initial => initial.spans

def returnedSpans : Option Expr → List Span
  | none => []
  | some value => value.spans

mutual

def Stmt.spans : Stmt → List Span
  | .declaration binder initial span => span :: (binder.spans ++ initialSpans initial)
  | .assign assignment span => span :: assignment.spans
  | .expression value span | .display value span => span :: value.spans
  | .ifThen condition body span | .whileLoop condition body span => span :: (condition.spans ++ body.spans)
  | .ifElse condition body otherwise span => span :: (condition.spans ++ body.spans ++ otherwise.spans)
  | .forEach binder group body span => span :: group.span :: (binder.spans ++ body.spans)
  | .returns value span => span :: returnedSpans value
  | .block body span => span :: allStmtSpans body

def allStmtSpans : List Stmt → List Span
  | [] => []
  | first :: rest => first.spans ++ allStmtSpans rest

end

def Function.spans (function : Function) : List Span :=
  function.span :: function.name.span :: (function.parameters.flatMap Binder.spans ++ allStmtSpans function.body)

def Tunnel.spans (tunnel : Tunnel) : List Span :=
  tunnel.span :: tunnel.binder.spans

def Group.spans (group : Group) : List Span :=
  [group.span, group.client.span, group.name.span]

/-- The spans within a client. -/
def Client.innerSpans (client : Client) : List Span :=
  client.name.span :: (client.tunnels.flatMap Tunnel.spans ++ client.functions.flatMap Function.spans)

/-- The spans within a server. -/
def Server.innerSpans (server : Server) : List Span :=
  server.name.span :: (server.groups.flatMap Group.spans ++ server.functions.flatMap Function.spans)

/-- The spans of whatever stands in one of the parts. -/
def Program.innerSpans (program : Program) : List Span :=
  program.clients.flatMap Client.innerSpans ++ program.server.innerSpans

theorem allExprSpans_eq (arguments : List Expr) :
    allExprSpans arguments = arguments.flatMap Expr.spans := by
  induction arguments with
  | nil => rfl
  | cons first rest ih => rw [allExprSpans, ih, List.flatMap_cons]

theorem allStmtSpans_eq (stmts : List Stmt) : allStmtSpans stmts = stmts.flatMap Stmt.spans := by
  induction stmts with
  | nil => rfl
  | cons first rest ih => rw [allStmtSpans, ih, List.flatMap_cons]

theorem Expr.span_mem_spans (expr : Expr) : expr.span ∈ expr.spans := by
  cases expr <;> simp [span, spans]

namespace Typing

theorem ExprDerives.start_eq {setting : Setting} {loops : Known Interface} {context : Known Ty} {expr : Expr}
    {typed : Typed.Expr} (derives : ExprDerives setting loops context expr typed) :
    typed.start = expr.start := by
  cases derives <;> rfl

/-- One of the spans starts there. -/
def StartsAmong (spans : List Span) (place : Position) : Prop :=
  ∃ span ∈ spans, span.start = place

section
variable {spans others : List Span} {place : Position}

theorem StartsAmong.mono (starts : StartsAmong spans place) (included : spans ⊆ others) :
    StartsAmong others place := by
  obtain ⟨span, among, same⟩ := starts
  exact ⟨span, included among, same⟩

theorem ExprDerives.startsAmong {setting : Setting} {loops : Known Interface} {context : Known Ty}
    {expr : Expr} {typed : Typed.Expr} (derives : ExprDerives setting loops context expr typed) :
    StartsAmong expr.spans typed.start :=
  ⟨expr.span, expr.span_mem_spans, derives.start_eq.symm⟩

end

section
variable {setting : Setting} {loops : Known Interface} {violated : Violation} {place : Position}

theorem CalleeBreaks.startsAmong {owner : String} {functions : List Signature} {called : Identifier}
    {received : Nat} {callSpan : Span}
    (broken : CalleeBreaks owner functions called received callSpan violated place) :
    StartsAmong [callSpan, called.span] place := by
  cases broken with
  | undefined => exact ⟨called.span, by simp, rfl⟩
  | arity => exact ⟨callSpan, by simp, rfl⟩

theorem OpensBreak.startsAmong {context : Known Ty} {names : List Identifier}
    (broken : OpensBreak context names violated place) :
    StartsAmong (names.map Identifier.span) place := by
  induction broken with
  | undefined | notSecret => exact ⟨_, List.mem_cons_self, rfl⟩
  | later _ _ _ ih => exact ih.mono (List.subset_cons_self _ _)

theorem OperatorBreaks.startsAmong {operator : Operator} {context : Known Ty} {left right : Expr}
    {typedLeft typedRight : Typed.Expr} (first : ExprDerives setting loops context left typedLeft)
    (second : ExprDerives setting loops context right typedRight)
    (broken : OperatorBreaks operator typedLeft typedRight violated place) :
    StartsAmong (left.spans ++ right.spans) place := by
  cases broken with
  | left => exact first.startsAmong.mono (List.subset_append_left _ _)
  | right | equality => exact second.startsAmong.mono (List.subset_append_right _ _)

end

mutual

theorem ExprBreaks.startsAmong {setting : Setting} {loops : Known Interface} {context : Known Ty}
    {expr : Expr} {violated : Violation} {place : Position}
    (broken : ExprBreaks setting loops context expr violated place) : StartsAmong expr.spans place :=
  match broken with
  | .outsideServer _ _ | .outsideClient _ _ => ⟨_, Expr.span_mem_spans _, rfl⟩
  | .symbol _ | .remotePut _ => ⟨_, List.mem_cons_self, rfl⟩
  | .left broken => broken.startsAmong.mono fun _ among => by simp [Expr.spans, among]
  | .right _ broken => broken.startsAmong.mono fun _ among => by simp [Expr.spans, among]
  | .operator first second broken => (broken.startsAmong first second).mono (List.subset_cons_self _ _)
  | .operand broken => broken.startsAmong.mono fun _ among => by simp [Expr.spans, among]
  | .notTruth derives _ => derives.startsAmong.mono fun _ among => by simp [Expr.spans, among]
  | .callee broken => broken.startsAmong.mono (by simp [Expr.spans])
  | .arguments _ _ broken => broken.startsAmong.mono fun _ among => by simp [Expr.spans, among]
  | .unbound _ _ | .remoteUnbound _ _ => ⟨_, by simp [Expr.spans], rfl⟩
  | .remoteCallee _ _ broken => broken.startsAmong.mono (by simp [Expr.spans])
  | .remoteArguments _ _ _ _ broken => broken.startsAmong.mono fun _ among => by simp [Expr.spans, among]
  | .putUndefined _ _ | .readUndefined _ _ | .remoteUndefined _ _ _ => ⟨_, by simp [Expr.spans], rfl⟩
  | .putValue _ _ broken => broken.startsAmong.mono fun _ among => by simp [Expr.spans, among]
  | .putMismatch _ _ derives _ => derives.startsAmong.mono fun _ among => by simp [Expr.spans, among]
  | .opens _ broken => broken.startsAmong.mono fun _ among => by simp [Expr.spans, List.mem_map.1 among]
  | .revealed _ _ broken => broken.startsAmong.mono fun _ among => by simp [Expr.spans, among]

theorem ArgumentsBreak.startsAmong {setting : Setting} {loops : Known Interface} {called : String}
    {context : Known Ty} {count : Nat} {parameters : List Ty} {arguments : List Expr} {violated : Violation}
    {place : Position}
    (broken : ArgumentsBreak setting loops called context count parameters arguments violated place) :
    StartsAmong (allExprSpans arguments) place :=
  match broken with
  | .argument broken => broken.startsAmong.mono fun _ among => by simp [allExprSpans, among]
  | .mismatch derives _ => derives.startsAmong.mono fun _ among => by simp [allExprSpans, among]
  | .later _ _ broken => broken.startsAmong.mono fun _ among => by simp [allExprSpans, among]

end

section
variable {options : Options} {setting : Setting} {loops : Known Interface} {context : Known Ty}
  {violated : Violation} {place : Position}

theorem AdmitsBreak.startsAmong {name : Identifier} (broken : AdmitsBreak setting context name violated place) :
    StartsAmong [name.span] place := by
  cases broken <;> exact ⟨name.span, List.mem_singleton_self _, rfl⟩

theorem AssignsBreak.startsAmong {assignment : Assignment}
    (broken : AssignsBreak setting loops context assignment violated place) :
    StartsAmong assignment.spans place := by
  cases broken with
  | undefined => exact ⟨assignment.target.span, by simp [Assignment.spans], rfl⟩
  | value _ broken => exact broken.startsAmong.mono fun _ among => by simp [Assignment.spans, among]
  | mismatch _ derives => exact derives.startsAmong.mono fun _ among => by simp [Assignment.spans, among]

theorem GuardsBreak.startsAmong {construct : String} {condition : Expr}
    (broken : GuardsBreak setting loops context construct condition violated place) :
    StartsAmong condition.spans place := by
  cases broken with
  | condition broken => exact broken.startsAmong
  | notTruth derives => exact derives.startsAmong

end

mutual

theorem StmtBreaks.startsAmong {options : Options} {setting : Setting} {loops : Known Interface}
    {context : Known Ty} {stmt : Stmt} {violated : Violation} {place : Position}
    (broken : StmtBreaks options setting loops context stmt violated place) : StartsAmong stmt.spans place :=
  match broken with
  | .declares broken => broken.startsAmong.mono (by simp [Stmt.spans, Binder.spans])
  | .initial _ broken => broken.startsAmong.mono fun _ among => by simp [Stmt.spans, initialSpans, among]
  | .assign broken => broken.startsAmong.mono fun _ among => by simp [Stmt.spans, among]
  | .expression broken | .displayed broken => broken.startsAmong.mono fun _ among => by simp [Stmt.spans, among]
  | .display derives _ _ => derives.startsAmong.mono fun _ among => by simp [Stmt.spans, among]
  | .ifGuard broken | .whileGuard broken | .ifElseGuard broken =>
    broken.startsAmong.mono fun _ among => by simp [Stmt.spans, among]
  | .ifBody _ broken | .whileBody _ broken | .ifElseBody _ broken | .otherwise _ _ broken =>
    broken.startsAmong.mono fun _ among => by simp [Stmt.spans, among]
  | .outsideServer _ => ⟨_, List.mem_cons_self, rfl⟩
  | .loopVariable _ _ | .group _ _ _ => ⟨_, by simp [Stmt.spans, Binder.spans], rfl⟩
  | .loopDeclares _ _ _ broken => broken.startsAmong.mono (by simp [Stmt.spans, Binder.spans])
  | .loopBody _ _ _ _ broken => broken.startsAmong.mono fun _ among => by simp [Stmt.spans, among]
  | .returnsNothing _ | .returns _ _ => ⟨_, List.mem_cons_self, rfl⟩
  | .returned broken => broken.startsAmong.mono fun _ among => by simp [Stmt.spans, returnedSpans, among]
  | .block broken => broken.startsAmong.mono fun _ among => by simp [Stmt.spans, among]

theorem StmtsBreak.startsAmong {options : Options} {setting : Setting} {loops : Known Interface}
    {context : Known Ty} {stmts : List Stmt} {violated : Violation} {place : Position}
    (broken : StmtsBreak options setting loops context stmts violated place) :
    StartsAmong (allStmtSpans stmts) place :=
  match broken with
  | .here broken => broken.startsAmong.mono fun _ among => by simp [allStmtSpans, among]
  | .later _ broken => broken.startsAmong.mono fun _ among => by simp [allStmtSpans, among]

end

/-- Where every item breaks a rule among its own spans, a list of them breaks one among the spans of its items. -/
theorem BreaksInTurn.startsAmong {α β : Type} {derives : List α → α → β → Prop}
    {breaks : List α → α → Violation → Position → Prop} {spans : α → List Span} {before items : List α}
    {violated : Violation} {place : Position}
    (broken : BreaksInTurn derives breaks before items violated place)
    (each : ∀ before item, breaks before item violated place → StartsAmong (spans item) place) :
    StartsAmong (items.flatMap spans) place := by
  induction broken with
  | here broken => exact (each _ _ broken).mono fun _ among => by simp [among]
  | later _ _ ih => exact (ih each).mono (List.flatMap_cons ▸ List.subset_append_right _ _)

section
variable {options : Options} {owner : String} {violated : Violation} {place : Position}

theorem FunctionBreaks.startsAmong {holdings : Holdings} {before : List Function} {function : Function}
    (broken : FunctionBreaks options owner holdings before function violated place) :
    StartsAmong function.spans place := by
  cases broken with
  | duplicate | reserved => exact ⟨function.name.span, by simp [Function.spans], rfl⟩
  | parameters _ _ broken =>
    have starts : StartsAmong (function.parameters.flatMap Binder.spans) place :=
      broken.startsAmong fun _ _ broken => AdmitsBreak.startsAmong broken |>.mono (by simp [Binder.spans])
    exact starts.mono
      (List.subset_cons_of_subset _ (List.subset_cons_of_subset _ (List.subset_append_left _ _)))
  | body _ _ _ broken => exact broken.startsAmong.mono fun _ among => by simp [Function.spans, among]

theorem TunnelBreaks.startsAmong {before : List Tunnel} {tunnel : Tunnel}
    (broken : TunnelBreaks owner before tunnel violated place) : StartsAmong tunnel.spans place := by
  cases broken <;> exact ⟨_, by simp [Tunnel.spans, Binder.spans], rfl⟩

theorem GroupBreaks.startsAmong {clients : List Client} {before : List Group} {group : Group}
    (broken : GroupBreaks owner clients before group violated place) : StartsAmong group.spans place := by
  cases broken <;> exact ⟨_, by simp [Group.spans], rfl⟩

theorem ClientBreaks.startsAmong {before : List Client} {client : Client}
    (broken : ClientBreaks options before client violated place) : StartsAmong client.innerSpans place := by
  cases broken with
  | duplicate => exact ⟨_, List.mem_cons_self, rfl⟩
  | tunnels _ broken =>
    exact (broken.startsAmong fun _ _ broken => broken.startsAmong).mono
      (List.subset_cons_of_subset _ (List.subset_append_left _ _))
  | functions _ _ broken =>
    exact (broken.startsAmong fun _ _ broken => broken.startsAmong).mono
      (List.subset_cons_of_subset _ (List.subset_append_right _ _))

theorem ServerBreaks.startsAmong {clients : List Client} {server : Server}
    (broken : ServerBreaks options clients server violated place) : StartsAmong server.innerSpans place := by
  cases broken with
  | groups broken =>
    exact (broken.startsAmong fun _ _ broken => broken.startsAmong).mono
      (List.subset_cons_of_subset _ (List.subset_append_left _ _))
  | functions _ broken =>
    exact (broken.startsAmong fun _ _ broken => broken.startsAmong).mono
      (List.subset_cons_of_subset _ (List.subset_append_right _ _))

/-- The place of a fault is within one of the parts. -/
theorem ProgramBreaks.startsAmong {program : Program}
    (broken : ProgramBreaks options program violated place) : StartsAmong program.innerSpans place := by
  cases broken with
  | clients broken =>
    exact (broken.startsAmong fun _ _ broken => broken.startsAmong).mono (List.subset_append_left _ _)
  | server _ broken => exact broken.startsAmong.mono (List.subset_append_right _ _)

end

end Typing
end Multiparty
