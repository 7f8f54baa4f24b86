import Multiparty.Token.Basic

/-! What a token means where an operand, an operator or a statement begins. -/

namespace Multiparty

/-- How strongly an operator holds its operands, from the weakest to the strongest. -/
inductive Power
  | default
  | or
  | and
  | equality
  | relational
  | additive
  | multiplicative
  | unary
  | primary
deriving DecidableEq

namespace Power

def rank : Power → Nat
  | .default => 0
  | .or => 1
  | .and => 2
  | .equality => 3
  | .relational => 4
  | .additive => 5
  | .multiplicative => 6
  | .unary => 7
  | .primary => 8

def name : Power → String
  | .default => "Default"
  | .or => "Or"
  | .and => "And"
  | .equality => "Equality"
  | .relational => "Relational"
  | .additive => "Additive"
  | .multiplicative => "Multiplicative"
  | .unary => "Unary"
  | .primary => "Primary"

/-- From the weakest to the strongest. -/
def all : List Power :=
  [.default, .or, .and, .equality, .relational, .additive, .multiplicative, .unary, .primary]

theorem rank_injective {first second : Power} (same : first.rank = second.rank) :
    first = second := by
  cases first <;> cases second <;> first | rfl | exact absurd same (by decide)

end Power

/-- The ways to read an operand. -/
inductive OperandRule
  | literal
  | identifier
  | negation
  | grouping
  | readInt
  | reveal
deriving DecidableEq

/-- The ways to read a statement. `any` looks the rule up by the token that is met. -/
inductive StatementRule
  | any
  | declaration
  | identifier
  | display
  | conditional
  | whileLoop
  | forEach
  | returns
  | block
deriving DecidableEq

/-- A kind without a power is no operator. -/
structure Table where
  power : Token.Kind → Option Power
  operand : Token.Kind → Option OperandRule
  statement : Token.Kind → Option StatementRule

namespace Table
open Token

def empty : Table :=
  ⟨fun _ => none, fun _ => none, fun _ => none⟩

def withPower (kind : Kind) (power : Power) (table : Table) : Table :=
  { table with power := fun other => if other = kind then some power else table.power other }

def withOperand (kind : Kind) (rule : OperandRule) (table : Table) : Table :=
  { table with operand := fun other => if other = kind then some rule else table.operand other }

def withStatement (kind : Kind) (rule : StatementRule) (table : Table) : Table :=
  { table with statement := fun other => if other = kind then some rule else table.statement other }

def standardPower : Kind → Option Power
  | .or => some .or
  | .and => some .and
  | .equals => some .equality
  | .less | .greater => some .relational
  | .plus | .dash => some .additive
  | .star | .slash | .percent => some .multiplicative
  | _ => none

def standardOperand : Kind → Option OperandRule
  | .number | .string | .trueWord | .falseWord => some .literal
  | .identifier => some .identifier
  | .not => some .negation
  | .openParen => some .grouping
  | .readIntWord => some .readInt
  | .openWord => some .reveal
  | _ => none

def standardStatement : Kind → Option StatementRule
  | .intWord | .sintWord | .boolWord | .sboolWord | .stringWord | .voidWord | .clientWord
  | .sclientWord => some .declaration
  | .identifier => some .identifier
  | .displayWord => some .display
  | .ifWord => some .conditional
  | .whileWord => some .whileLoop
  | .forWord => some .forEach
  | .returnWord => some .returns
  | .openCurly => some .block
  | _ => none

/-- The table of the language. -/
def standard : Table :=
  ⟨standardPower, standardOperand, standardStatement⟩

/-- The power of an operator, and the weakest for what is none. -/
def powerOf (table : Table) (kind : Kind) : Power :=
  (table.power kind).getD .default

end Table
end Multiparty
