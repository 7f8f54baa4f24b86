import Multiparty.Parsing.Program
import Multiparty.Tree.Printer

/-! The grammar of the language, as relations between sequences of terminals and trees. Neither side knows where
it stands in a file. Nothing here looks ahead or backtracks: an expression of a level holds operators of that
level or stronger ones only, and an `if` with an `else` has no open `if` before its `else`. -/

namespace Multiparty

def Operator.kind : Operator → Token.Kind
  | .add => .plus
  | .subtract => .dash
  | .multiply => .star
  | .divide => .slash
  | .modulo => .percent
  | .and => .and
  | .or => .or
  | .less => .less
  | .greater => .greater
  | .equal => .equals

/-! Trees without the places of their nodes. -/

def Identifier.bare (identifier : Identifier) : Identifier :=
  ⟨identifier.name, .nowhere⟩

def Binder.bare (binder : Binder) : Binder :=
  ⟨binder.type, binder.name.bare, .nowhere⟩

mutual

def Expr.bare : Expr → Expr
  | .int value _ => .int value .nowhere
  | .bool value _ => .bool value .nowhere
  | .string value _ => .string value .nowhere
  | .symbol name _ => .symbol name .nowhere
  | .binary operator left right _ => .binary operator left.bare right.bare .nowhere
  | .not operand _ => .not operand.bare .nowhere
  | .call function arguments _ _ => .call function.bare (allBare arguments) .nowhere .nowhere
  | .invoke target function arguments _ _ =>
    .invoke target.bare function.bare (allBare arguments) .nowhere .nowhere
  | .put tunnel value _ _ => .put tunnel.bare value.bare .nowhere .nowhere
  | .read tunnel reading _ _ => .read tunnel.bare reading .nowhere .nowhere
  | .remotePut target tunnel value _ _ =>
    .remotePut target.bare tunnel.bare value.bare .nowhere .nowhere
  | .remoteRead target tunnel reading _ _ =>
    .remoteRead target.bare tunnel.bare reading .nowhere .nowhere
  | .reveal body names _ => .reveal body.bare (names.map Identifier.bare) .nowhere
  | .readInt _ => .readInt .nowhere

def allBare : List Expr → List Expr
  | [] => []
  | first :: rest => first.bare :: allBare rest

end

def Assignment.bare (assignment : Assignment) : Assignment :=
  ⟨assignment.target.bare, assignment.value.bare, .nowhere⟩

mutual

def Stmt.bare : Stmt → Stmt
  | .declaration binder initial _ => .declaration binder.bare (initial.map Assignment.bare) .nowhere
  | .assign assignment _ => .assign assignment.bare .nowhere
  | .expression value _ => .expression value.bare .nowhere
  | .display value _ => .display value.bare .nowhere
  | .ifThen condition body _ => .ifThen condition.bare body.bare .nowhere
  | .ifElse condition body otherwise _ => .ifElse condition.bare body.bare otherwise.bare .nowhere
  | .whileLoop condition body _ => .whileLoop condition.bare body.bare .nowhere
  | .forEach binder group body _ => .forEach binder.bare group.bare body.bare .nowhere
  | .returns value _ => .returns (value.map Expr.bare) .nowhere
  | .block body _ => .block (allStmtsBare body) .nowhere

def allStmtsBare : List Stmt → List Stmt
  | [] => []
  | first :: rest => first.bare :: allStmtsBare rest

end

theorem allBare_eq_map (arguments : List Expr) : allBare arguments = arguments.map Expr.bare := by
  induction arguments with
  | nil => rfl
  | cons first rest ih => rw [allBare, ih, List.map_cons]

theorem allStmtsBare_eq_map (stmts : List Stmt) : allStmtsBare stmts = stmts.map Stmt.bare := by
  induction stmts with
  | nil => rfl
  | cons first rest ih => rw [allStmtsBare, ih, List.map_cons]

def Function.bare (function : Function) : Function :=
  ⟨function.returnType, function.name.bare, function.parameters.map Binder.bare,
    function.body.map Stmt.bare, .nowhere⟩

def Tunnel.bare (tunnel : Tunnel) : Tunnel :=
  ⟨tunnel.binder.bare, .nowhere⟩

def Group.bare (group : Group) : Group :=
  ⟨group.client.bare, group.name.bare, .nowhere⟩

def Client.bare (client : Client) : Client :=
  ⟨client.name.bare, client.tunnels.map Tunnel.bare, client.functions.map Function.bare, .nowhere⟩

def Server.bare (server : Server) : Server :=
  ⟨server.name.bare, server.groups.map Group.bare, server.functions.map Function.bare, .nowhere⟩

def Program.bare (program : Program) : Program :=
  ⟨program.clients.map Client.bare, program.server.bare, .nowhere⟩

/-- Whether an `else` after the statement would belong to an `if` at its end. -/
def Stmt.endsOpen : Stmt → Bool
  | .ifThen _ _ _ => true
  | .ifElse _ _ otherwise _ => otherwise.endsOpen
  | .whileLoop _ body _ | .forEach _ _ body _ => body.endsOpen
  | _ => false

namespace Grammar

/-- What the grammar sees of a token. -/
inductive Terminal
  | mark (kind : Token.Kind)
  | number (digits : String)
  | string (value : String)
  | name (name : String)
deriving DecidableEq

namespace Terminal

def of (token : Token) : Terminal :=
  match token.kind with
  | .number => .number token.value
  | .string => .string token.value
  | .identifier => .name token.value
  | kind => .mark kind

def kind : Terminal → Token.Kind
  | .mark kind => kind
  | .number _ => .number
  | .string _ => .string
  | .name _ => .identifier

end Terminal

/-- Items with commas between them, and perhaps one after the last. -/
inductive Listed : List (List Terminal) → List Terminal → Prop
  | nil : Listed [] []
  | last {item : List Terminal} : Listed [item] item
  | cons {item rest : List Terminal} {items : List (List Terminal)} : Listed items rest →
    Listed (item :: items) (item ++ .mark .comma :: rest)

/-- Names with commas between them only. -/
def namesText (names : List String) : List Terminal :=
  [.mark .comma].intercalate (names.map fun name => [.name name])

def bareName (name : String) : Identifier :=
  ⟨name, .nowhere⟩

/-- An expression whose outermost operator has this precedence or a higher one: 1 to 6 for the binary operators, 7
for `not`, 8 for all else. -/
inductive ExprText : Nat → List Terminal → Expr → Prop
  | stronger {level text expr} : ExprText (level + 1) text expr → ExprText level text expr
  | binary {operator : Operator} {left right leftText rightText} :
    ExprText operator.precedence leftText left → ExprText (operator.precedence + 1) rightText right →
    ExprText operator.precedence (leftText ++ .mark operator.kind :: rightText)
      (.binary operator left right .nowhere)
  | not {operand text} : ExprText 7 text operand →
    ExprText 7 (.mark .not :: text) (.not operand .nowhere)
  | int {digits value} : Text.integer? digits = some value →
    ExprText 8 [.number digits] (.int value .nowhere)
  | bool {value : Bool} :
    ExprText 8 [.mark (if value then .trueWord else .falseWord)] (.bool value .nowhere)
  | string {value} : ExprText 8 [.string value] (.string value .nowhere)
  | symbol {name} : ExprText 8 [.name name] (.symbol name .nowhere)
  | grouping {inner text} : ExprText 1 text inner →
    ExprText 8 (.mark .openParen :: text ++ [.mark .closeParen]) inner
  | call {function listed} {arguments : List (List Terminal × Expr)} :
    (∀ argument ∈ arguments, ExprText 1 argument.1 argument.2) →
    Listed (arguments.map Prod.fst) listed →
    ExprText 8 (.name function :: .mark .openParen :: listed ++ [.mark .closeParen])
      (.call (bareName function) (arguments.map Prod.snd) .nowhere .nowhere)
  | invoke {target function listed} {arguments : List (List Terminal × Expr)} :
    isTunnelOperation function = false →
    (∀ argument ∈ arguments, ExprText 1 argument.1 argument.2) →
    Listed (arguments.map Prod.fst) listed →
    ExprText 8 (.name target :: .mark .dot :: .name function :: .mark .openParen :: listed ++
        [.mark .closeParen])
      (.invoke (bareName target) (bareName function) (arguments.map Prod.snd) .nowhere .nowhere)
  | put {tunnel value text listed} : ExprText 1 text value → Listed [text] listed →
    ExprText 8 (.name tunnel :: .mark .dot :: .name "put" :: .mark .openParen :: listed ++
        [.mark .closeParen])
      (.put (bareName tunnel) value .nowhere .nowhere)
  | read {tunnel} {reading : Reading} :
    ExprText 8 [.name tunnel, .mark .dot, .name reading.name, .mark .openParen, .mark .closeParen]
      (.read (bareName tunnel) reading .nowhere .nowhere)
  | remotePut {target tunnel value text listed} : ExprText 1 text value → Listed [text] listed →
    ExprText 8 (.name target :: .mark .dot :: .name tunnel :: .mark .dot :: .name "put" ::
        .mark .openParen :: listed ++ [.mark .closeParen])
      (.remotePut (bareName target) (bareName tunnel) value .nowhere .nowhere)
  | remoteRead {target tunnel} {reading : Reading} :
    ExprText 8 [.name target, .mark .dot, .name tunnel, .mark .dot, .name reading.name,
        .mark .openParen, .mark .closeParen]
      (.remoteRead (bareName target) (bareName tunnel) reading .nowhere .nowhere)
  | reveal {body text names} : ExprText 1 text body → names ≠ [] →
    ExprText 8 (.mark .openWord :: .mark .openParen :: text ++ .mark .pipe :: namesText names ++
        [.mark .closeParen])
      (.reveal body (names.map bareName) .nowhere)
  | readInt : ExprText 8 [.mark .readIntWord, .mark .openParen, .mark .closeParen] (.readInt .nowhere)

/-- A type that a reserved word names, with a name. -/
inductive BinderText : List Terminal → Binder → Prop
  | mk {word : Token.Kind} {type : Ty} {name : String} : word.type? = some type →
    BinderText [.mark word, .name name] ⟨type, bareName name, .nowhere⟩

/-- Only whole statements stand before an `else`: it belongs to the nearest `if` that has none. -/
inductive StmtText : List Terminal → Stmt → Prop
  | declaration {text binder} : BinderText text binder →
    StmtText (text ++ [.mark .semicolon]) (.declaration binder none .nowhere)
  | initialised {text binder value valueText} : BinderText text binder → ExprText 1 valueText value →
    StmtText (text ++ .mark .assignment :: valueText ++ [.mark .semicolon])
      (.declaration binder (some ⟨binder.name, value, .nowhere⟩) .nowhere)
  | assign {target value text} : ExprText 1 text value →
    StmtText (.name target :: .mark .assignment :: text ++ [.mark .semicolon])
      (.assign ⟨bareName target, value, .nowhere⟩ .nowhere)
  | expression {value text} : ExprText 1 text value →
    StmtText (text ++ [.mark .semicolon]) (.expression value .nowhere)
  | display {value text} : ExprText 1 text value →
    StmtText (.mark .displayWord :: .mark .openParen :: text ++ [.mark .closeParen, .mark .semicolon])
      (.display value .nowhere)
  | ifThen {condition text body bodyText} : ExprText 1 text condition → StmtText bodyText body →
    StmtText (.mark .ifWord :: .mark .openParen :: text ++ .mark .closeParen :: bodyText)
      (.ifThen condition body .nowhere)
  | ifElse {condition text body bodyText otherwise otherwiseText} : ExprText 1 text condition →
    StmtText bodyText body → body.endsOpen = false → StmtText otherwiseText otherwise →
    StmtText (.mark .ifWord :: .mark .openParen :: text ++ .mark .closeParen :: bodyText ++
        .mark .elseWord :: otherwiseText)
      (.ifElse condition body otherwise .nowhere)
  | whileLoop {condition text body bodyText} : ExprText 1 text condition → StmtText bodyText body →
    StmtText (.mark .whileWord :: .mark .openParen :: text ++ .mark .closeParen :: bodyText)
      (.whileLoop condition body .nowhere)
  | forEach {binder text group body bodyText} : BinderText text binder → StmtText bodyText body →
    StmtText (.mark .forWord :: .mark .openParen :: text ++ .mark .inWord :: .name group ::
        .mark .closeParen :: bodyText)
      (.forEach binder (bareName group) body .nowhere)
  | returnsNothing : StmtText [.mark .returnWord, .mark .semicolon] (.returns none .nowhere)
  | returns {value text} : ExprText 1 text value →
    StmtText (.mark .returnWord :: text ++ [.mark .semicolon]) (.returns (some value) .nowhere)
  | block {body : List (List Terminal × Stmt)} : (∀ stmt ∈ body, StmtText stmt.1 stmt.2) →
    StmtText (.mark .openCurly :: (body.map Prod.fst).flatten ++ [.mark .closeCurly])
      (.block (body.map Prod.snd) .nowhere)

inductive FunctionText : List Terminal → Function → Prop
  | mk {word type name listed} {parameters : List (List Terminal × Binder)}
      {body : List (List Terminal × Stmt)} : Token.Kind.type? word = some type →
    (∀ parameter ∈ parameters, BinderText parameter.1 parameter.2) →
    Listed (parameters.map Prod.fst) listed → (∀ stmt ∈ body, StmtText stmt.1 stmt.2) →
    FunctionText (.mark .functionWord :: .mark word :: .name name :: .mark .openParen :: listed ++
        .mark .closeParen :: .mark .openCurly :: (body.map Prod.fst).flatten ++ [.mark .closeCurly])
      ⟨type, bareName name, parameters.map Prod.snd, body.map Prod.snd, .nowhere⟩

inductive TunnelText : List Terminal → Tunnel → Prop
  | mk {text binder} : BinderText text binder →
    TunnelText (.mark .tunnelWord :: .mark .ofWord :: text ++ [.mark .semicolon]) ⟨binder, .nowhere⟩

inductive GroupText : List Terminal → Group → Prop
  | mk {client name} :
    GroupText [.mark .groupWord, .mark .ofWord, .name client, .name name, .mark .semicolon]
      ⟨bareName client, bareName name, .nowhere⟩

/-- Functions stand among the other members of a part, in any order. -/
inductive MemberText {α : Type} (other : List Terminal → α → Prop) :
    List Terminal → α ⊕ Function → Prop
  | other {text item} : other text item → MemberText other text (.inl item)
  | function {text function} : FunctionText text function → MemberText other text (.inr function)

inductive ClientText : List Terminal → Client → Prop
  | mk {name} {members : List (List Terminal × (Tunnel ⊕ Function))} :
    (∀ member ∈ members, MemberText TunnelText member.1 member.2) →
    ClientText (.mark .declareWord :: .mark .clientWord :: .name name :: .mark .openCurly ::
        (members.map Prod.fst).flatten ++ [.mark .closeCurly])
      ⟨bareName name, (members.map Prod.snd).filterMap Sum.getLeft?,
        (members.map Prod.snd).filterMap Sum.getRight?, .nowhere⟩

inductive ServerText : List Terminal → Server → Prop
  | mk {name} {members : List (List Terminal × (Group ⊕ Function))} :
    (∀ member ∈ members, MemberText GroupText member.1 member.2) →
    ServerText (.mark .declareWord :: .mark .serverWord :: .name name :: .mark .openCurly ::
        (members.map Prod.fst).flatten ++ [.mark .closeCurly])
      ⟨bareName name, (members.map Prod.snd).filterMap Sum.getLeft?,
        (members.map Prod.snd).filterMap Sum.getRight?, .nowhere⟩

inductive ProgramText : List Terminal → Program → Prop
  | mk {clients : List (List Terminal × Client)} {text server} :
    (∀ client ∈ clients, ClientText client.1 client.2) → ServerText text server →
    ProgramText ((clients.map Prod.fst).flatten ++ text) ⟨clients.map Prod.snd, server, .nowhere⟩

end Grammar
end Multiparty
