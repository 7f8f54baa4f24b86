/-! The binary operators and the operations on tunnels. -/

namespace Multiparty

inductive Operator
  | add
  | subtract
  | multiply
  | divide
  | modulo
  | and
  | or
  | less
  | greater
  | equal
deriving DecidableEq

namespace Operator

def symbol : Operator → String
  | .add => "+"
  | .subtract => "-"
  | .multiply => "*"
  | .divide => "/"
  | .modulo => "%"
  | .and => "and"
  | .or => "or"
  | .less => "<"
  | .greater => ">"
  | .equal => "=="

def all : List Operator :=
  [.add, .subtract, .multiply, .divide, .modulo, .and, .or, .less, .greater, .equal]

def isArithmetic : Operator → Bool
  | .add | .subtract | .multiply | .divide | .modulo => true
  | _ => false

def isLogical : Operator → Bool
  | .and | .or => true
  | _ => false

end Operator

/-- Ways to receive from a tunnel: `take` waits for a value, `get` does not. -/
inductive Reading
  | get
  | take
deriving DecidableEq

namespace Reading

def name : Reading → String
  | .get => "get"
  | .take => "take"

end Reading

/-- Whether `x.name(...)` is an operation on a tunnel. -/
def isTunnelOperation (name : String) : Bool :=
  name == "put" || name == "get" || name == "take"

end Multiparty
