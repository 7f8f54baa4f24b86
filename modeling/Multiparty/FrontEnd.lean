import Multiparty.Parsing.Progress
import Multiparty.Token.Lexer
import Multiparty.Tree.Printer
import Multiparty.Typing.Program

/-! The whole front end: from source text to a tree, and from source text to a typed tree. -/

namespace Multiparty

/-- Reads a token stream as a program. The bounds on the steps of the parser are never met. -/
def parseTokens (file : String) (tokens : List Token) : Except Diagnostic Program :=
  match settled : Parser.program .standard (.ofTokens file tokens) with
  | .done program _ => .ok program
  | .failed diagnostic _ => .error diagnostic
  | .exhausted => absurd settled (Parser.program_settles file tokens)

def parseSource (source file : String) : Except Diagnostic Program :=
  (Token.list source (some file)).bind (parseTokens file)

def checkSource (options : Typing.Options) (source file : String) : Except Diagnostic Typed.Program :=
  (parseSource source file).bind (Typing.checkProgram options)

end Multiparty
