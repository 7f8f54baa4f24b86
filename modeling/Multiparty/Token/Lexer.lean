import Multiparty.Diagnostic.Basic
import Multiparty.Source.Scanner
import Multiparty.Text.Blank
import Multiparty.Text.Literal
import Multiparty.Token.Basic

/-! From the text of a program to its tokens. Each step takes at least one character, so the text runs out. -/

namespace Multiparty

namespace Token

def reservedWords : List (String × Kind) :=
  [("declare", .declareWord), ("client", .clientWord), ("server", .serverWord),
   ("tunnel", .tunnelWord), ("group", .groupWord), ("of", .ofWord), ("function", .functionWord),
   ("int", .intWord), ("sint", .sintWord), ("bool", .boolWord), ("sbool", .sboolWord),
   ("string", .stringWord), ("void", .voidWord), ("sclient", .sclientWord), ("if", .ifWord),
   ("else", .elseWord), ("while", .whileWord), ("for", .forWord), ("in", .inWord),
   ("return", .returnWord), ("display", .displayWord), ("true", .trueWord), ("false", .falseWord),
   ("and", .and), ("or", .or), ("not", .not), ("open", .openWord), ("readInt", .readIntWord)]

def wordKind (word : String) : Kind :=
  (reservedWords.lookup word).getD .identifier

/-- A symbol comes before the symbols that it begins with. -/
def symbols : List (List Char × Kind) :=
  [(['\x7b'], .openCurly), (['\x7d'], .closeCurly), (['('], .openParen), ([')'], .closeParen),
   (['=', '='], .equals), (['='], .assignment), (['!'], .not), (['<'], .less), (['>'], .greater),
   (['|', '|'], .or), (['|'], .pipe), (['&', '&'], .and), (['.'], .dot), ([';'], .semicolon),
   ([','], .comma), (['+'], .plus), (['-'], .dash), (['/'], .slash), (['*'], .star),
   (['%'], .percent)]

def isWordStart (char : Char) : Bool :=
  char.isAlpha || char == '_'

def isWordChar (char : Char) : Bool :=
  char.isAlphanum || char == '_'

/-- What stands at the start of a text: its first character and `tail`. -/
inductive Lexeme
  | skipped (tail : List Char)
  | token (kind : Kind) (value : List Char) (tail : List Char)

namespace Lexeme

def tail : Lexeme → List Char
  | .skipped tail => tail
  | .token _ _ tail => tail

/-- The first symbol of the list that the text begins with. -/
def symbol? (first : Char) (rest : List Char) : Option Lexeme :=
  (symbols.find? fun symbol => symbol.1.isPrefixOf (first :: rest)).map fun symbol =>
    .token symbol.2 symbol.1 symbol.1.tail

/-- White space, words and numbers extend as far as they can, and a comment to the end of its line. -/
def scan? (first : Char) (rest : List Char) : Option Lexeme :=
  if isWordStart first then
    let tail := rest.takeWhile isWordChar
    some (.token (wordKind (String.ofList (first :: tail))) (first :: tail) tail)
  else if first.isDigit then
    let tail := rest.takeWhile Char.isDigit
    some (.token .number (first :: tail) tail)
  else if Text.isBlank first then
    some (.skipped (rest.takeWhile Text.isBlank))
  else if first = '"' then
    (Text.literalBody? rest).map fun body => .token .string (Text.unescape body) (body ++ ['"'])
  else if first = '/' ∧ rest.head? = some '/' then
    some (.skipped (rest.takeWhile (· ≠ '\n')))
  else symbol? first rest

end Lexeme

/-- The tokens of `chars`, which begin at byte `byte` of the file. -/
def listFrom (file : String) (byte : Nat) (chars : List Char) : Except Diagnostic (List Token) :=
  match chars with
  | [] => .ok [endOfInput (.ofByte byte file)]
  | first :: rest =>
    match Lexeme.scan? first rest with
    | none => .error ⟨.unrecognised (String.singleton first), .ofByte byte file⟩
    | some lexeme =>
      let length := Text.byteCount (first :: lexeme.tail)
      let following := listFrom file (byte + length) (rest.drop lexeme.tail.length)
      match lexeme with
      | .skipped _ => following
      | .token kind value _ =>
        following.map fun tokens => ⟨kind, String.ofList value, .ofBytes byte length file⟩ :: tokens
termination_by chars.length
decreasing_by simp only [List.length_drop, List.length_cons]; omega

/-- The stream ends with an end-of-input token just past the text. -/
def list (source : String) (file? : Option String) : Except Diagnostic (List Token) :=
  listFrom (file?.getD Scanner.defaultFile) 0 source.toList

end Token
end Multiparty
