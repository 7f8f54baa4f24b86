import Multiparty.Text.Integer
import Multiparty.Text.Literal
import Multiparty.Tree.Typed

/-! Typed programs as source text. Parentheses stand only where an operator would otherwise take its operands
differently. -/

namespace Multiparty

/-- How strongly an operator holds its operands, from one upwards. -/
def Operator.precedence : Operator → Nat
  | .or => 1
  | .and => 2
  | .equal => 3
  | .less | .greater => 4
  | .add | .subtract => 5
  | .multiply | .divide | .modulo => 6

namespace Typed

def notPrecedence : Nat := 7

/-- What is neither a binary operator nor `not` never needs parentheses. -/
def atomPrecedence : Nat := 8

def Expr.precedence : Expr → Nat
  | .binary operator _ _ _ => operator.precedence
  | .not _ _ => notPrecedence
  | _ => atomPrecedence

def commas (items : List String) : String :=
  ", ".intercalate items

def literal (value : String) : String :=
  "\"" ++ String.ofList (Text.escape value.toList) ++ "\""

/-- The text of an operand, in parentheses if it holds less strongly than `least`. -/
def enclose (precedence least : Nat) (text : String) : String :=
  if precedence < least then "(" ++ text ++ ")" else text

mutual

/-- Binary operators group to the left, so a right operand must hold more strongly. -/
def Expr.print : Expr → String
  | .int value _ => Text.decimal value
  | .bool value _ => if value then "true" else "false"
  | .string value _ => literal value
  | .symbol name _ => name
  | .binary operator left right _ =>
    enclose left.precedence operator.precedence left.print ++ " " ++ operator.symbol ++ " " ++
      enclose right.precedence (operator.precedence + 1) right.print
  | .not operand _ => "not " ++ enclose operand.precedence notPrecedence operand.print
  | .call function arguments _ => function ++ "(" ++ commas (printAll arguments) ++ ")"
  | .invoke target _ function arguments _ =>
    target ++ "." ++ function ++ "(" ++ commas (printAll arguments) ++ ")"
  | .put tunnel value _ => tunnel ++ ".put(" ++ value.print ++ ")"
  | .read tunnel reading _ => tunnel ++ "." ++ reading.name ++ "()"
  | .remotePut target _ tunnel value _ => target ++ "." ++ tunnel ++ ".put(" ++ value.print ++ ")"
  | .remoteRead target _ tunnel reading _ =>
    target ++ "." ++ tunnel ++ "." ++ reading.name ++ "()"
  | .reveal body names _ => "open(" ++ body.print ++ " | " ++ commas names ++ ")"
  | .readInt _ => "readInt()"

def printAll : List Expr → List String
  | [] => []
  | first :: rest => first.print :: printAll rest

end

attribute [simp] Expr.print printAll

def indent : Nat → String
  | 0 => ""
  | level + 1 => "    " ++ indent level

def line (level : Nat) (text : String) : String :=
  indent level ++ text

/-- The header of a compound statement stands on a line of its own, unless its body is a block. -/
def headerLines (level : Nat) : Option String → List String
  | none => []
  | some header => [line level header]

def bodyLevel (level : Nat) : Option String → Nat
  | none => level
  | some _ => level + 1

def openingLine (level : Nat) : Option String → String
  | none => line level "\x7b"
  | some header => line level (header ++ " \x7b")

mutual

/-- The lines of a statement that is the body of `header?`, or stands by itself. A block opens on the line of
its header; any other statement goes below, one level deeper. -/
def Stmt.linesUnder (header? : Option String) (level : Nat) : Stmt → List String
  | .declaration name type (some value) _ =>
    headerLines level header? ++
      [line (bodyLevel level header?) (type.name ++ " " ++ name ++ " = " ++ value.print ++ ";")]
  | .declaration name type none _ =>
    headerLines level header? ++ [line (bodyLevel level header?) (type.name ++ " " ++ name ++ ";")]
  | .assign target value _ =>
    headerLines level header? ++
      [line (bodyLevel level header?) (target ++ " = " ++ value.print ++ ";")]
  | .expression value _ =>
    headerLines level header? ++ [line (bodyLevel level header?) (value.print ++ ";")]
  | .display value _ =>
    headerLines level header? ++
      [line (bodyLevel level header?) ("display(" ++ value.print ++ ");")]
  | .ifThen condition body _ =>
    headerLines level header? ++
      body.linesUnder (some ("if (" ++ condition.print ++ ")")) (bodyLevel level header?)
  | .ifElse condition body otherwise _ =>
    headerLines level header? ++
      body.linesUnder (some ("if (" ++ condition.print ++ ")")) (bodyLevel level header?) ++
      otherwise.linesUnder (some "else") (bodyLevel level header?)
  | .whileLoop condition body _ =>
    headerLines level header? ++
      body.linesUnder (some ("while (" ++ condition.print ++ ")")) (bodyLevel level header?)
  | .forEach name group _ body _ =>
    headerLines level header? ++
      body.linesUnder (some ("for (client " ++ name ++ " in " ++ group ++ ")"))
        (bodyLevel level header?)
  | .returns (some value) _ _ =>
    headerLines level header? ++
      [line (bodyLevel level header?) ("return " ++ value.print ++ ";")]
  | .returns none _ _ =>
    headerLines level header? ++ [line (bodyLevel level header?) "return;"]
  | .block body _ =>
    openingLine level header? :: allLines (level + 1) body ++ [line level "\x7d"]

def allLines (level : Nat) : List Stmt → List String
  | [] => []
  | first :: rest => first.linesUnder none level ++ allLines level rest

end

attribute [simp] Stmt.linesUnder allLines

def Function.lines (function : Function) : List String :=
  let parameters := function.parameters.map fun parameter => parameter.type.name ++ " " ++ parameter.name
  line 1 ("function " ++ function.returnType.name ++ " " ++ function.name ++ "(" ++
      commas parameters ++ ") \x7b") ::
    allLines 2 function.body ++ [line 1 "\x7d"]

/-- A blank line stands between members of a part, but not between two that fit on one line each. -/
def partLines (header : String) (declarations : List String) (functions : List Function) :
    List String :=
  let groups := functions.map Function.lines
  let parts := if declarations.isEmpty then groups else declarations :: groups
  header :: [""].intercalate parts ++ ["\x7d"]

def Client.lines (client : Client) : List String :=
  partLines ("declare client " ++ client.name ++ " \x7b")
    (client.tunnels.map fun tunnel =>
      line 1 ("tunnel of " ++ tunnel.type.name ++ " " ++ tunnel.name ++ ";"))
    client.functions

def Server.lines (server : Server) : List String :=
  partLines ("declare server " ++ server.name ++ " \x7b")
    (server.groups.map fun group => line 1 ("group of " ++ group.client ++ " " ++ group.name ++ ";"))
    server.functions

def Program.lines (program : Program) : List String :=
  program.clients.flatMap (fun client => client.lines ++ [""]) ++ program.server.lines

/-- Each line with the line break that ends it. -/
def ofLines (lines : List String) : String :=
  String.join (lines.map (· ++ "\n"))

def Stmt.print (stmt : Stmt) : String :=
  ofLines (stmt.linesUnder none 0)

def Program.print (program : Program) : String :=
  ofLines program.lines

end Typed
end Multiparty
