import Multiparty.Diagnostic.Basic
import Multiparty.Source.Line
import Multiparty.Text.Blank

/-! A diagnostic as it is shown to the programmer: the cause, the file, and the source line with a caret. -/

namespace Multiparty

def alignRight (width : Nat) (fill : Char) (text : String) : String :=
  String.ofList (List.replicate (width - text.length) fill) ++ text

/-- Spaces and tabs only. The caret is moved left by as many columns. -/
def isIndent (char : Char) : Bool :=
  char == ' ' || char == '\t'

namespace Line

/-- The source line without the white space around it. -/
def shown (line : Line) : String :=
  String.ofList (Text.trim (line.text.dropWhile isIndent))

/-- One column for each byte between the indentation and the place, and one for the caret. -/
def caretWidth (line : Line) : Nat :=
  line.offset - (line.text.takeWhile isIndent).length + 1

def excerpt (line : Line) : String :=
  let number := toString line.number
  let margin := alignRight (number.length + 2) ' ' "|"
  margin ++ "\n" ++ number ++ " | " ++ line.shown ++ "\n" ++ margin ++ " " ++
    alignRight line.caretWidth '-' "^" ++ "\n"

end Line

namespace Diagnostic

def headline (diagnostic : Diagnostic) : String :=
  match diagnostic.cause.tip? with
  | some tip => "Error: " ++ diagnostic.cause.name ++ " (" ++ tip ++ ")\n"
  | none => "Error: " ++ diagnostic.cause.name ++ "\n"

/-- A place past the end of `content`, or in an empty one, is reported without a source line. -/
def report (content file : String) (diagnostic : Diagnostic) : String :=
  diagnostic.headline ++ "-> " ++ file ++ "\n" ++
    ((Line.at? content diagnostic.position.offset).map Line.excerpt).getD ""

end Diagnostic
end Multiparty
