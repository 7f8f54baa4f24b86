import Multiparty.Source.Position

/-! The tokens of a program. -/

namespace Multiparty

namespace Token

/-- Reserved words have kinds that end in `Word`; `not`, `and` and `or` may be written as symbols too. -/
inductive Kind
  | endOfInput
  | number
  | string
  | identifier
  | openCurly
  | closeCurly
  | openParen
  | closeParen
  | assignment
  | equals
  | not
  | less
  | greater
  | or
  | and
  | dot
  | semicolon
  | comma
  | pipe
  | plus
  | dash
  | slash
  | star
  | percent
  | declareWord
  | clientWord
  | serverWord
  | tunnelWord
  | groupWord
  | ofWord
  | functionWord
  | intWord
  | sintWord
  | boolWord
  | sboolWord
  | stringWord
  | voidWord
  | sclientWord
  | ifWord
  | elseWord
  | whileWord
  | forWord
  | inWord
  | returnWord
  | displayWord
  | trueWord
  | falseWord
  | openWord
  | readIntWord
deriving DecidableEq

namespace Kind

def name : Kind → String
  | .endOfInput => "EOF"
  | .number => "Number"
  | .string => "String"
  | .identifier => "Identifier"
  | .openCurly => "OpenCurly"
  | .closeCurly => "CloseCurly"
  | .openParen => "OpenParen"
  | .closeParen => "CloseParen"
  | .assignment => "Assignment"
  | .equals => "Equals"
  | .not => "Not"
  | .less => "Less"
  | .greater => "Greater"
  | .or => "Or"
  | .and => "And"
  | .dot => "Dot"
  | .semicolon => "Semicolon"
  | .comma => "Comma"
  | .pipe => "Pipe"
  | .plus => "Plus"
  | .dash => "Dash"
  | .slash => "Slash"
  | .star => "Star"
  | .percent => "Percent"
  | .declareWord => "Declare"
  | .clientWord => "Client"
  | .serverWord => "Server"
  | .tunnelWord => "Tunnel"
  | .groupWord => "Group"
  | .ofWord => "Of"
  | .functionWord => "Function"
  | .intWord => "Int"
  | .sintWord => "Sint"
  | .boolWord => "Bool"
  | .sboolWord => "Sbool"
  | .stringWord => "StringType"
  | .voidWord => "Void"
  | .sclientWord => "Sclient"
  | .ifWord => "If"
  | .elseWord => "Else"
  | .whileWord => "While"
  | .forWord => "For"
  | .inWord => "In"
  | .returnWord => "Return"
  | .displayWord => "Display"
  | .trueWord => "True"
  | .falseWord => "False"
  | .openWord => "Open"
  | .readIntWord => "ReadInt"

/-- In the order of their declaration. -/
def all : List Kind :=
  [.endOfInput, .number, .string, .identifier, .openCurly, .closeCurly, .openParen, .closeParen,
   .assignment, .equals, .not, .less, .greater, .or, .and, .dot, .semicolon, .comma, .pipe, .plus,
   .dash, .slash, .star, .percent, .declareWord, .clientWord, .serverWord, .tunnelWord, .groupWord,
   .ofWord, .functionWord, .intWord, .sintWord, .boolWord, .sboolWord, .stringWord, .voidWord,
   .sclientWord, .ifWord, .elseWord, .whileWord, .forWord, .inWord, .returnWord, .displayWord,
   .trueWord, .falseWord, .openWord, .readIntWord]

theorem mem_all (kind : Kind) : kind ∈ all := by
  cases kind <;> decide

def ofName? (name : String) : Option Kind :=
  all.find? fun kind => kind.name == name

/-- Whether a token of this kind names a type that a program can write. -/
def isType (kind : Kind) : Bool :=
  kind ∈ [intWord, sintWord, boolWord, sboolWord, stringWord, voidWord, clientWord, sclientWord]

end Kind
end Token

/-- `value` is the text of the token, but for a string literal the text it stands for. -/
structure Token where
  kind : Token.Kind
  value : String
  span : Span
deriving DecidableEq

namespace Token

/-- The last token of every stream. It covers no text. -/
def endOfInput (place : Position) : Token :=
  ⟨.endOfInput, "EOF", ⟨place, place⟩⟩

def isType (token : Token) : Bool :=
  token.kind.isType

def isAmong (kinds : List Kind) (token : Token) : Bool :=
  token.kind ∈ kinds

def describe (token : Token) : String :=
  "Token \x7b\nkind: " ++ token.kind.name ++ ",\nvalue: " ++ token.value ++ "\x7d"

end Token
end Multiparty
