import Multiparty.Proofs.FunctionChecks
import Multiparty.Proofs.Grammar

/-! Types do not depend on where a program stands. Programs that differ in the places of their nodes only are typed
alike, with typed trees that differ in places only. -/

namespace Multiparty

/-! Typed trees without the places of their nodes. -/

namespace Typed

def Mark.bare (mark : Mark) : Mark :=
  ⟨mark.type, .nowhere⟩

mutual

def Expr.bare : Expr → Expr
  | .int value mark => .int value mark.bare
  | .bool value mark => .bool value mark.bare
  | .string value mark => .string value mark.bare
  | .symbol name mark => .symbol name mark.bare
  | .binary operator left right mark => .binary operator left.bare right.bare mark.bare
  | .not operand mark => .not operand.bare mark.bare
  | .call function arguments mark => .call function (allBare arguments) mark.bare
  | .invoke target client function arguments mark =>
    .invoke target client function (allBare arguments) mark.bare
  | .put tunnel value mark => .put tunnel value.bare mark.bare
  | .read tunnel reading mark => .read tunnel reading mark.bare
  | .remotePut target client tunnel value mark => .remotePut target client tunnel value.bare mark.bare
  | .remoteRead target client tunnel reading mark => .remoteRead target client tunnel reading mark.bare
  | .reveal body names mark => .reveal body.bare names mark.bare
  | .readInt mark => .readInt mark.bare

def allBare : List Expr → List Expr
  | [] => []
  | first :: rest => first.bare :: allBare rest

end

mutual

def Stmt.bare : Stmt → Stmt
  | .declaration name type initial _ => .declaration name type (initial.map Expr.bare) .nowhere
  | .assign target value _ => .assign target value.bare .nowhere
  | .expression value _ => .expression value.bare .nowhere
  | .display value _ => .display value.bare .nowhere
  | .ifThen condition body _ => .ifThen condition.bare body.bare .nowhere
  | .ifElse condition body otherwise _ => .ifElse condition.bare body.bare otherwise.bare .nowhere
  | .whileLoop condition body _ => .whileLoop condition.bare body.bare .nowhere
  | .forEach name group client body _ => .forEach name group client body.bare .nowhere
  | .returns value type _ => .returns (value.map Expr.bare) type .nowhere
  | .block body _ => .block (allStmtsBare body) .nowhere

def allStmtsBare : List Stmt → List Stmt
  | [] => []
  | first :: rest => first.bare :: allStmtsBare rest

end

def Function.bare (function : Function) : Function :=
  { function with body := allStmtsBare function.body, span := .nowhere }

def Tunnel.bare (tunnel : Tunnel) : Tunnel :=
  { tunnel with span := .nowhere }

def Group.bare (group : Group) : Group :=
  { group with span := .nowhere }

def Client.bare (client : Client) : Client :=
  ⟨client.name, client.tunnels.map Tunnel.bare, client.functions.map Function.bare, .nowhere⟩

def Server.bare (server : Server) : Server :=
  ⟨server.name, server.groups.map Group.bare, server.functions.map Function.bare, .nowhere⟩

def Program.bare (program : Program) : Program :=
  ⟨program.clients.map Client.bare, program.server.bare, .nowhere⟩

theorem Expr.type_bare (expr : Expr) : expr.bare.type = expr.type := by
  cases expr <;> rfl

theorem Expr.type_eq {expr other : Expr} (same : other.bare = expr.bare) : other.type = expr.type := by
  rw [← other.type_bare, same, expr.type_bare]

end Typed

/-! What the rules see of a tree does not depend on its places. -/

theorem Identifier.name_eq {name other : Identifier} (same : other.bare = name.bare) :
    other.name = name.name :=
  (Identifier.mk.inj same).1

theorem names_eq {names others : List Identifier} (same : others.map Identifier.bare = names.map Identifier.bare) :
    others.map Identifier.name = names.map Identifier.name := by
  simpa [Identifier.bare, Function.comp_def] using congrArg (List.map Identifier.name) same

theorem Binder.eq_of_bare {binder other : Binder} (same : other.bare = binder.bare) :
    other.type = binder.type ∧ other.name.name = binder.name.name := by
  obtain ⟨type, name, -⟩ := Binder.mk.inj same
  exact ⟨type, Identifier.name_eq name⟩

namespace Typing

theorem Opens.respanned {context opened : Known Ty} {names others : List Identifier}
    (opens : Opens context names opened)
    (same : others.map Identifier.bare = names.map Identifier.bare) : Opens context others opened := by
  induction opens generalizing others with
  | nil =>
    obtain rfl := List.map_eq_nil_iff.mp same
    exact .nil
  | cons known secret _ ih =>
    cases others with
    | nil => cases same
    | cons first rest =>
      obtain ⟨sameFirst, sameRest⟩ := List.cons.inj same
      have named := Identifier.name_eq sameFirst
      refine .cons ?_ secret ?_
      · rw [named, known]
      · rw [named]
        exact ih sameRest

section
variable {setting : Setting} {loops : Known Interface}

mutual

/-- Expressions that differ in places only have typed expressions that differ in places only. -/
theorem ExprDerives.respanned {context : Known Ty} (expr : Expr) {typed : Typed.Expr}
    (derives : ExprDerives setting loops context expr typed) {other : Expr}
    (same : other.bare = expr.bare) :
    ∃ otherTyped, ExprDerives setting loops context other otherTyped ∧ otherTyped.bare = typed.bare := by
  cases expr with
  | int value span =>
    cases derives
    cases other with
    | int =>
      obtain ⟨rfl, -⟩ := Expr.int.inj same
      exact ⟨_, .int, rfl⟩
    | _ => cases same
  | bool value span =>
    cases derives
    cases other with
    | bool =>
      obtain ⟨rfl, -⟩ := Expr.bool.inj same
      exact ⟨_, .bool, rfl⟩
    | _ => cases same
  | string value span =>
    cases derives
    cases other with
    | string =>
      obtain ⟨rfl, -⟩ := Expr.string.inj same
      exact ⟨_, .string, rfl⟩
    | _ => cases same
  | symbol name span =>
    cases derives with
    | symbol known =>
      cases other with
      | symbol =>
        obtain ⟨rfl, -⟩ := Expr.symbol.inj same
        exact ⟨_, .symbol known, rfl⟩
      | _ => cases same
  | binary operator left right span =>
    cases derives with
    | binary first second operates =>
      cases other with
      | binary =>
        obtain ⟨rfl, sameLeft, sameRight, -⟩ := Expr.binary.inj same
        obtain ⟨typedLeft, deriveLeft, bareLeft⟩ := ExprDerives.respanned left first sameLeft
        obtain ⟨typedRight, deriveRight, bareRight⟩ := ExprDerives.respanned right second sameRight
        rw [← Typed.Expr.type_eq bareLeft, ← Typed.Expr.type_eq bareRight] at operates
        exact ⟨_, .binary deriveLeft deriveRight operates, by simp [Typed.Expr.bare, *, Typed.Mark.bare]⟩
      | _ => cases same
  | not operand span =>
    cases derives with
    | not first truth =>
      cases other with
      | not =>
        obtain ⟨sameOperand, -⟩ := Expr.not.inj same
        obtain ⟨typed, derive, bare⟩ := ExprDerives.respanned operand first sameOperand
        rw [← Typed.Expr.type_eq bare] at truth
        exact ⟨_, .not derive truth, by simp [Typed.Expr.bare, *, Typed.Mark.bare]⟩
      | _ => cases same
  | call called arguments callSpan span =>
    cases derives with
    | call known derive =>
      cases other with
      | call =>
        obtain ⟨sameName, sameArguments, -⟩ := Expr.call.inj same
        have named := Identifier.name_eq sameName
        obtain ⟨typed, derive, bare⟩ := ArgumentsDerive.respanned arguments derive sameArguments
        rw [← named] at known ⊢
        exact ⟨_, .call known derive, by simp [Typed.Expr.bare, *, Typed.Mark.bare]⟩
      | _ => cases same
  | invoke target called arguments callSpan span =>
    cases derives with
    | invoke server bound known derive =>
      cases other with
      | invoke =>
        obtain ⟨sameTarget, sameName, sameArguments, -⟩ := Expr.invoke.inj same
        have named := Identifier.name_eq sameName
        have targeted := Identifier.name_eq sameTarget
        obtain ⟨typed, derive, bare⟩ := ArgumentsDerive.respanned arguments derive sameArguments
        rw [← named] at known ⊢
        rw [← targeted] at bound ⊢
        exact ⟨_, .invoke server bound known derive, by simp [Typed.Expr.bare, *, Typed.Mark.bare]⟩
      | _ => cases same
  | put tunnel value callSpan span =>
    cases derives with
    | put client carried first =>
      cases other with
      | put =>
        obtain ⟨sameTunnel, sameValue, -⟩ := Expr.put.inj same
        have named := Identifier.name_eq sameTunnel
        obtain ⟨typed, derive, bare⟩ := ExprDerives.respanned value first sameValue
        rw [← named, ← Typed.Expr.type_eq bare] at carried
        rw [← named]
        exact ⟨_, .put client carried derive, by simp [Typed.Expr.bare, *, Typed.Mark.bare]⟩
      | _ => cases same
  | read tunnel reading callSpan span =>
    cases derives with
    | read client carried =>
      cases other with
      | read =>
        obtain ⟨sameTunnel, rfl, -⟩ := Expr.read.inj same
        have named := Identifier.name_eq sameTunnel
        rw [← named] at carried ⊢
        exact ⟨_, .read client carried, rfl⟩
      | _ => cases same
  | remotePut => cases derives
  | remoteRead target tunnel reading callSpan span =>
    cases derives with
    | remoteRead server bound carried =>
      cases other with
      | remoteRead =>
        obtain ⟨sameTarget, sameTunnel, rfl, -⟩ := Expr.remoteRead.inj same
        have named := Identifier.name_eq sameTunnel
        have targeted := Identifier.name_eq sameTarget
        rw [← named] at carried ⊢
        rw [← targeted] at bound ⊢
        exact ⟨_, .remoteRead server bound carried, rfl⟩
      | _ => cases same
  | reveal body names span =>
    cases derives with
    | reveal server opens first =>
      cases other with
      | reveal =>
        obtain ⟨sameBody, sameNames, -⟩ := Expr.reveal.inj same
        obtain ⟨typed, derive, bare⟩ := ExprDerives.respanned body first sameBody
        have typeEq := Typed.Expr.type_eq bare
        refine ⟨_, .reveal server (opens.respanned sameNames) derive, ?_⟩
        simp [Typed.Expr.bare, Typed.Mark.bare, bare, typeEq, names_eq sameNames]
      | _ => cases same
  | readInt span =>
    cases derives
    cases other with
    | readInt => exact ⟨_, .readInt, rfl⟩
    | _ => cases same
termination_by structural expr

theorem ArgumentsDerive.respanned {context : Known Ty} {parameters : List Ty} (arguments : List Expr)
    {typed : List Typed.Expr} (derive : ArgumentsDerive setting loops context parameters arguments typed)
    {others : List Expr} (same : allBare others = allBare arguments) :
    ∃ otherTyped, ArgumentsDerive setting loops context parameters others otherTyped ∧
      Typed.allBare otherTyped = Typed.allBare typed := by
  cases arguments with
  | nil =>
    cases derive
    cases others with
    | nil => exact ⟨[], .nil, rfl⟩
    | cons => cases same
  | cons argument arguments =>
    cases derive with
    | cons first fits rest =>
      cases others with
      | nil => cases same
      | cons other others =>
        obtain ⟨sameFirst, sameRest⟩ := List.cons.inj same
        obtain ⟨typedFirst, deriveFirst, bareFirst⟩ := ExprDerives.respanned argument first sameFirst
        obtain ⟨typedRest, deriveRest, bareRest⟩ := ArgumentsDerive.respanned arguments rest sameRest
        rw [← Typed.Expr.type_eq bareFirst] at fits
        exact ⟨_, .cons deriveFirst fits deriveRest, by simp [Typed.allBare, *]⟩
termination_by structural arguments

end

theorem Assigns.respanned {context : Known Ty} {assignment other : Assignment} {typed : Typed.Expr}
    (assigns : Assigns setting loops context assignment typed) (same : other.bare = assignment.bare) :
    ∃ otherTyped, Assigns setting loops context other otherTyped ∧ otherTyped.bare = typed.bare := by
  obtain ⟨sameTarget, sameValue, -⟩ := Assignment.mk.inj same
  obtain ⟨typed, derive, bare⟩ := assigns.value.respanned _ sameValue
  refine ⟨typed, ⟨?_, derive⟩, bare⟩
  rw [Identifier.name_eq sameTarget, Typed.Expr.type_eq bare]
  exact assigns.target

theorem Guards.respanned {context : Known Ty} {condition other : Expr} {typed : Typed.Expr}
    (guards : Guards setting loops context condition typed) (same : other.bare = condition.bare) :
    ∃ otherTyped, Guards setting loops context other otherTyped ∧ otherTyped.bare = typed.bare := by
  obtain ⟨typed, derive, bare⟩ := guards.derives.respanned _ same
  refine ⟨typed, ⟨derive, ?_⟩, bare⟩
  rw [Typed.Expr.type_eq bare]
  exact guards.truth

end

section
variable {options : Options} {setting : Setting}

mutual

theorem StmtDerives.respanned {loops : Known Interface} {context after : Known Ty} (stmt : Stmt)
    {typed : Typed.Stmt} (derives : StmtDerives options setting loops context stmt typed after)
    {other : Stmt} (same : other.bare = stmt.bare) :
    ∃ otherTyped, StmtDerives options setting loops context other otherTyped after ∧
      otherTyped.bare = typed.bare := by
  cases stmt with
  | declaration binder initial span =>
    cases other with
    | declaration otherBinder otherInitial =>
      obtain ⟨sameBinder, sameInitial, -⟩ := Stmt.declaration.inj same
      obtain ⟨type, name⟩ := Binder.eq_of_bare sameBinder
      cases derives with
      | declaration admitted =>
        obtain rfl : otherInitial = none := Option.map_eq_none_iff.mp sameInitial
        rw [← name] at admitted ⊢
        rw [← type]
        exact ⟨_, .declaration admitted, rfl⟩
      | initialised admitted assigns =>
        obtain ⟨assignment, rfl, sameAssignment⟩ := Option.map_eq_some_iff.mp sameInitial
        obtain ⟨typed, otherAssigns, bare⟩ := assigns.respanned sameAssignment
        rw [← name] at admitted otherAssigns ⊢
        rw [← type] at otherAssigns ⊢
        exact ⟨_, .initialised admitted otherAssigns, by simp [Typed.Stmt.bare, bare]⟩
    | _ => cases same
  | assign assignment span =>
    cases derives with
    | assign assigns =>
      cases other with
      | assign =>
        obtain ⟨sameAssignment, -⟩ := Stmt.assign.inj same
        obtain ⟨sameTarget, -⟩ := Assignment.mk.inj sameAssignment
        obtain ⟨typed, otherAssigns, bare⟩ := assigns.respanned sameAssignment
        rw [← Identifier.name_eq sameTarget]
        exact ⟨_, .assign otherAssigns, by simp [Typed.Stmt.bare, bare]⟩
      | _ => cases same
  | expression value span =>
    cases derives with
    | expression derives =>
      cases other with
      | expression =>
        obtain ⟨sameValue, -⟩ := Stmt.expression.inj same
        obtain ⟨typed, derive, bare⟩ := derives.respanned _ sameValue
        exact ⟨_, .expression derive, by simp [Typed.Stmt.bare, bare]⟩
      | _ => cases same
  | display value span =>
    cases derives with
    | display derives strict =>
      cases other with
      | display =>
        obtain ⟨sameValue, -⟩ := Stmt.display.inj same
        obtain ⟨typed, derive, bare⟩ := derives.respanned _ sameValue
        rw [← Typed.Expr.type_eq bare] at strict
        exact ⟨_, .display derive strict, by simp [Typed.Stmt.bare, bare]⟩
      | _ => cases same
  | ifThen condition body span =>
    cases derives with
    | ifThen guards derives =>
      cases other with
      | ifThen =>
        obtain ⟨sameGuard, sameBody, -⟩ := Stmt.ifThen.inj same
        obtain ⟨typedGuard, otherGuards, bareGuard⟩ := guards.respanned sameGuard
        obtain ⟨typed, derive, bare⟩ := StmtDerives.respanned body derives sameBody
        exact ⟨_, .ifThen otherGuards derive, by simp [Typed.Stmt.bare, bare, bareGuard]⟩
      | _ => cases same
  | ifElse condition body otherwise span =>
    cases derives with
    | ifElse guards first second =>
      cases other with
      | ifElse =>
        obtain ⟨sameGuard, sameBody, sameElse, -⟩ := Stmt.ifElse.inj same
        obtain ⟨typedGuard, otherGuards, bareGuard⟩ := guards.respanned sameGuard
        obtain ⟨typed, derive, bare⟩ := StmtDerives.respanned body first sameBody
        obtain ⟨typedElse, deriveElse, bareElse⟩ := StmtDerives.respanned otherwise second sameElse
        exact ⟨_, .ifElse otherGuards derive deriveElse,
          by simp [Typed.Stmt.bare, bare, bareGuard, bareElse]⟩
      | _ => cases same
  | whileLoop condition body span =>
    cases derives with
    | whileLoop guards derives =>
      cases other with
      | whileLoop =>
        obtain ⟨sameGuard, sameBody, -⟩ := Stmt.whileLoop.inj same
        obtain ⟨typedGuard, otherGuards, bareGuard⟩ := guards.respanned sameGuard
        obtain ⟨typed, derive, bare⟩ := StmtDerives.respanned body derives sameBody
        exact ⟨_, .whileLoop otherGuards derive, by simp [Typed.Stmt.bare, bare, bareGuard]⟩
      | _ => cases same
  | forEach binder group body span =>
    cases derives with
    | forEach server kind known admitted derives =>
      cases other with
      | forEach =>
        obtain ⟨sameBinder, sameGroup, sameBody, -⟩ := Stmt.forEach.inj same
        obtain ⟨type, name⟩ := Binder.eq_of_bare sameBinder
        obtain ⟨typed, derive, bare⟩ := StmtDerives.respanned body derives sameBody
        rw [← type] at kind
        rw [← Identifier.name_eq sameGroup] at known ⊢
        rw [← name] at admitted derive ⊢
        exact ⟨_, .forEach server kind known admitted derive, by simp [Typed.Stmt.bare, bare]⟩
      | _ => cases same
  | returns value span =>
    cases other with
    | returns otherValue =>
      obtain ⟨sameValue, -⟩ := Stmt.returns.inj same
      cases derives with
      | returnsNothing void =>
        obtain rfl : otherValue = none := Option.map_eq_none_iff.mp sameValue
        exact ⟨_, .returnsNothing void, rfl⟩
      | returns derives declared =>
        obtain ⟨given, rfl, sameGiven⟩ := Option.map_eq_some_iff.mp sameValue
        obtain ⟨typed, derive, bare⟩ := derives.respanned _ sameGiven
        rw [← Typed.Expr.type_eq bare] at declared ⊢
        exact ⟨_, .returns derive declared, by simp [Typed.Stmt.bare, bare]⟩
    | _ => cases same
  | block body span =>
    cases derives with
    | block derive =>
      cases other with
      | block =>
        obtain ⟨sameBody, -⟩ := Stmt.block.inj same
        obtain ⟨typed, derive, bare⟩ := StmtsDerive.respanned body derive sameBody
        exact ⟨_, .block derive, by simp [Typed.Stmt.bare, bare]⟩
      | _ => cases same
termination_by structural stmt

theorem StmtsDerive.respanned {loops : Known Interface} {context after : Known Ty} (stmts : List Stmt)
    {typed : List Typed.Stmt} (derive : StmtsDerive options setting loops context stmts typed after)
    {others : List Stmt} (same : allStmtsBare others = allStmtsBare stmts) :
    ∃ otherTyped, StmtsDerive options setting loops context others otherTyped after ∧
      Typed.allStmtsBare otherTyped = Typed.allStmtsBare typed := by
  cases stmts with
  | nil =>
    cases derive
    cases others with
    | nil => exact ⟨[], .nil, rfl⟩
    | cons => cases same
  | cons stmt stmts =>
    cases derive with
    | cons first rest =>
      cases others with
      | nil => cases same
      | cons other others =>
        obtain ⟨sameFirst, sameRest⟩ := List.cons.inj same
        obtain ⟨typedFirst, deriveFirst, bareFirst⟩ := StmtDerives.respanned stmt first sameFirst
        obtain ⟨typedRest, deriveRest, bareRest⟩ := StmtsDerive.respanned stmts rest sameRest
        exact ⟨_, .cons deriveFirst deriveRest, by simp [Typed.allStmtsBare, *]⟩
termination_by structural stmts

end

end

/-- Items that differ in places only derive in turn what differs in places only. -/
theorem InTurn.respanned {α β γ δ : Type} {derives others : List α → α → β → Prop} {erase : α → γ}
    {eraseTyped : β → δ} {before items otherBefore otherItems : List α} {typed : List β}
    (turn : InTurn derives before items typed)
    (each : ∀ before item typed otherBefore otherItem, derives before item typed →
      otherBefore.map erase = before.map erase → erase otherItem = erase item →
      ∃ otherTyped, others otherBefore otherItem otherTyped ∧ eraseTyped otherTyped = eraseTyped typed)
    (sameBefore : otherBefore.map erase = before.map erase)
    (same : otherItems.map erase = items.map erase) :
    ∃ otherTyped, InTurn others otherBefore otherItems otherTyped ∧
      otherTyped.map eraseTyped = typed.map eraseTyped := by
  induction turn generalizing otherBefore otherItems with
  | nil =>
    obtain rfl := List.map_eq_nil_iff.mp same
    exact ⟨[], .nil, rfl⟩
  | cons derive _ ih =>
    cases otherItems with
    | nil => cases same
    | cons otherItem otherItems =>
      obtain ⟨sameItem, sameItems⟩ := List.cons.inj same
      obtain ⟨first, deriveFirst, bareFirst⟩ := each _ _ _ _ _ derive sameBefore sameItem
      obtain ⟨rest, deriveRest, bareRest⟩ :=
        @ih (otherBefore ++ [otherItem]) _ (by simp [sameBefore, sameItem]) sameItems
      exact ⟨first :: rest, .cons deriveFirst deriveRest, by simp [bareFirst, bareRest]⟩

theorem seeded_bare (parameters : List Binder) :
    seeded (parameters.map Binder.bare) = seeded parameters := by
  rw [seeded, List.foldl_map]
  rfl

theorem signature_bare (function : Function) : function.bare.signature = function.signature := by
  simp [Function.signature, Function.bare, Identifier.bare, Binder.bare, Function.comp_def]

theorem signatures_bare (functions : List Function) :
    (functions.map Function.bare).map Function.signature = functions.map Function.signature := by
  simp [Function.comp_def, signature_bare]

theorem entries_bare (tunnels : List Tunnel) :
    (tunnels.map Tunnel.bare).map Tunnel.entry = tunnels.map Tunnel.entry := by
  simp [Function.comp_def, Tunnel.entry, Tunnel.bare, Binder.bare, Identifier.bare]

theorem interface_bare (client : Client) : client.bare.interface = client.interface := by
  simp only [Client.interface, Client.bare, signatures_bare, entries_bare, Identifier.bare]

theorem interface?_bare (clients : List Client) (name : String) :
    interface? (clients.map Client.bare) name = interface? clients name := by
  induction clients with
  | nil => rfl
  | cons client clients ih =>
    by_cases found : client.name.name = name
    · simp [interface?, Client.bare, Identifier.bare, found, ← interface_bare client]
    · simpa [interface?, Client.bare, Identifier.bare, found] using ih

theorem groupEntries_bare (clients : List Client) (groups : List Group) :
    groupEntries (clients.map Client.bare) (groups.map Group.bare) = groupEntries clients groups := by
  simp [groupEntries, List.filterMap_map, Function.comp_def, Group.bare, Identifier.bare, interface?_bare]

variable {options : Options}

theorem FunctionDerives.respanned {owner : String} {holdings : Holdings} {before otherBefore : List Function}
    {function other : Function} {typed : Typed.Function}
    (derive : FunctionDerives options owner holdings before function typed)
    (sameBefore : otherBefore.map Function.bare = before.map Function.bare)
    (same : other.bare = function.bare) :
    ∃ otherTyped, FunctionDerives options owner holdings otherBefore other otherTyped ∧
      otherTyped.bare = typed.bare := by
  have signatures : otherBefore.map Function.signature = before.map Function.signature := by
    rw [← signatures_bare otherBefore, sameBefore, signatures_bare]
  have signature : other.signature = function.signature := by
    rw [← signature_bare other, same, signature_bare]
  have setting : Setting.of owner holdings otherBefore other = .of owner holdings before function := by
    simp [Setting.of, signatures, signature]
  obtain ⟨returnType, sameName, sameParameters, sameBody, -⟩ := Function.mk.inj same
  have named := Identifier.name_eq sameName
  have seeds : seeded other.parameters = seeded function.parameters := by
    rw [← seeded_bare other.parameters, sameParameters, seeded_bare]
  obtain ⟨parameters, deriveParameters, bareParameters⟩ :
      ∃ parameters, InTurn (ParameterDerives (.of owner holdings before function)) [] other.parameters
        parameters ∧ parameters.map id = typed.parameters.map id := by
    apply derive.parameters.respanned _ rfl sameParameters
    intro before binder typed otherBefore otherBinder derive sameBefore same
    obtain ⟨type, name⟩ := Binder.eq_of_bare same
    have known : seeded otherBefore = seeded before := by
      rw [← seeded_bare otherBefore, sameBefore, seeded_bare]
    refine ⟨typed, ⟨?_, ?_⟩, rfl⟩
    · rw [known, name]
      exact derive.admitted
    · rw [type, name]
      exact derive.result
  obtain ⟨after, deriveBody⟩ := derive.body
  rw [← allStmtsBare_eq_map, ← allStmtsBare_eq_map] at sameBody
  obtain ⟨body, deriveOther, bareBody⟩ := deriveBody.respanned _ sameBody
  refine ⟨⟨other.returnType, other.name.name, parameters, body, other.span⟩, ⟨?_, ?_, ?_, ?_, rfl⟩, ?_⟩
  · rw [signatures, named]
    exact derive.fresh
  · rw [setting, named]
    exact derive.allowed
  · rw [setting]
    exact deriveParameters
  · rw [setting, seeds]
    exact ⟨after, deriveOther⟩
  · obtain ⟨typedReturn, others⟩ := Prod.mk.inj derive.result
    obtain ⟨typedName, -⟩ := Prod.mk.inj others
    rw [List.map_id, List.map_id] at bareParameters
    simp [Typed.Function.bare, typedReturn, typedName, returnType, named, bareParameters, bareBody]

theorem TunnelDerives.respanned {before otherBefore : List Tunnel} {tunnel other : Tunnel}
    {typed : Typed.Tunnel} (derive : TunnelDerives before tunnel typed)
    (sameBefore : otherBefore.map Tunnel.bare = before.map Tunnel.bare)
    (same : other.bare = tunnel.bare) :
    ∃ otherTyped, TunnelDerives otherBefore other otherTyped ∧ otherTyped.bare = typed.bare := by
  have entries : otherBefore.map Tunnel.entry = before.map Tunnel.entry := by
    rw [← entries_bare otherBefore, sameBefore, entries_bare]
  obtain ⟨type, name⟩ := Binder.eq_of_bare (Tunnel.mk.inj same).1
  refine ⟨other.typed, ⟨?_, ?_, rfl⟩, ?_⟩
  · rw [entries, name]
    exact derive.fresh
  · rw [type]
    exact derive.carries
  · rw [derive.result]
    simp [Typed.Tunnel.bare, Tunnel.typed, type, name]

theorem GroupDerives.respanned {clients otherClients : List Client} {before otherBefore : List Group}
    {group other : Group} {typed : Typed.Group} (derive : GroupDerives clients before group typed)
    (sameClients : otherClients.map Client.bare = clients.map Client.bare)
    (sameBefore : otherBefore.map Group.bare = before.map Group.bare) (same : other.bare = group.bare) :
    ∃ otherTyped, GroupDerives otherClients otherBefore other otherTyped ∧
      otherTyped.bare = typed.bare := by
  obtain ⟨sameClient, sameName, -⟩ := Group.mk.inj same
  have client := Identifier.name_eq sameClient
  have name := Identifier.name_eq sameName
  refine ⟨other.typed, ⟨?_, ?_, rfl⟩, ?_⟩
  · rw [← interface?_bare otherClients, sameClients, interface?_bare, client]
    exact derive.declared
  · rw [← groupEntries_bare otherClients, sameClients, sameBefore, groupEntries_bare, name]
    exact derive.fresh
  · rw [derive.result]
    simp [Typed.Group.bare, Group.typed, client, name]

theorem ClientDerives.respanned {before otherBefore : List Client} {client other : Client}
    {typed : Typed.Client} (derive : ClientDerives options before client typed)
    (sameBefore : otherBefore.map Client.bare = before.map Client.bare)
    (same : other.bare = client.bare) :
    ∃ otherTyped, ClientDerives options otherBefore other otherTyped ∧ otherTyped.bare = typed.bare := by
  obtain ⟨sameName, sameTunnels, sameFunctions, -⟩ := Client.mk.inj same
  have named := Identifier.name_eq sameName
  have entries : other.tunnels.map Tunnel.entry = client.tunnels.map Tunnel.entry := by
    rw [← entries_bare other.tunnels, sameTunnels, entries_bare]
  obtain ⟨tunnels, deriveTunnels, bareTunnels⟩ :=
    derive.tunnels.respanned (fun _ _ _ _ _ derive => derive.respanned) rfl sameTunnels
  obtain ⟨functions, deriveFunctions, bareFunctions⟩ :=
    derive.functions.respanned (fun _ _ _ _ _ derive => derive.respanned) rfl sameFunctions
  refine ⟨⟨other.name.name, tunnels, functions, other.span⟩, ⟨?_, deriveTunnels, ?_, rfl⟩, ?_⟩
  · rw [← interface?_bare otherBefore, sameBefore, interface?_bare, named]
    exact derive.fresh
  · rw [entries, named]
    exact deriveFunctions
  · have typedName := (Prod.mk.inj derive.result).1
    simp only [Typed.Client.bare, bareTunnels, bareFunctions, named, typedName]

theorem ServerDerives.respanned {clients otherClients : List Client} {server other : Server}
    {typed : Typed.Server} (derive : ServerDerives options clients server typed)
    (sameClients : otherClients.map Client.bare = clients.map Client.bare)
    (same : other.bare = server.bare) :
    ∃ otherTyped, ServerDerives options otherClients other otherTyped ∧ otherTyped.bare = typed.bare := by
  obtain ⟨sameName, sameGroups, sameFunctions, -⟩ := Server.mk.inj same
  have named := Identifier.name_eq sameName
  have entries : groupEntries otherClients other.groups = groupEntries clients server.groups := by
    rw [← groupEntries_bare otherClients, sameClients, sameGroups, groupEntries_bare]
  obtain ⟨groups, deriveGroups, bareGroups⟩ :=
    derive.groups.respanned (fun _ _ _ _ _ derive => derive.respanned sameClients) rfl sameGroups
  obtain ⟨functions, deriveFunctions, bareFunctions⟩ :=
    derive.functions.respanned (fun _ _ _ _ _ derive => derive.respanned) rfl sameFunctions
  refine ⟨⟨other.name.name, groups, functions, other.span⟩, ⟨deriveGroups, ?_, rfl⟩, ?_⟩
  · rw [entries, named]
    exact deriveFunctions
  · have typedName := (Prod.mk.inj derive.result).1
    simp only [Typed.Server.bare, bareGroups, bareFunctions, named, typedName]

/-- Programs that differ in places only have typed programs that differ in places only. -/
theorem ProgramDerives.respanned {program other : Program} {typed : Typed.Program}
    (derive : ProgramDerives options program typed) (same : other.bare = program.bare) :
    ∃ otherTyped, ProgramDerives options other otherTyped ∧ otherTyped.bare = typed.bare := by
  obtain ⟨sameClients, sameServer, -⟩ := Program.mk.inj same
  obtain ⟨clients, deriveClients, bareClients⟩ :=
    derive.clients.respanned (fun _ _ _ _ _ derive => derive.respanned) rfl sameClients
  obtain ⟨server, deriveServer, bareServer⟩ := derive.server.respanned sameClients sameServer
  refine ⟨⟨clients, server, other.span⟩, ⟨deriveClients, deriveServer, rfl⟩, ?_⟩
  simp only [Typed.Program.bare, bareClients, bareServer]

end Typing
end Multiparty
