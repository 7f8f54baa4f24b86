import Multiparty.Diagnostic.Basic
import Multiparty.Token.Basic

/-! Where the parser stands in the token stream. The stream is never empty and the cursor never leaves it:
at the last token it stays where it is. -/

namespace Multiparty

/-- `behind` is the end of the token that was consumed last, or the start of the file before that. -/
structure Cursor where
  behind : Position
  current : Token
  ahead : List Token
deriving DecidableEq

namespace Cursor
open Token

/-- The tokens after `last`, with an end-of-input token added to a stream that lacks one. -/
def closedAfter (last : Token) : List Token → List Token
  | [] => if last.kind = .endOfInput then [] else [endOfInput last.span.stop]
  | next :: rest => next :: closedAfter next rest

def ofTokens (file : String) : List Token → Cursor
  | [] => ⟨⟨0, file⟩, endOfInput ⟨0, file⟩, []⟩
  | first :: rest => ⟨⟨0, file⟩, first, closedAfter first rest⟩

def kind (cursor : Cursor) : Kind :=
  cursor.current.kind

/-- The kind of the token `distance` places on, or of the last one if there are fewer. -/
def kindAhead (cursor : Cursor) (distance : Nat) : Kind :=
  match (cursor.current :: cursor.ahead)[distance]? with
  | some token => token.kind
  | none => ((cursor.ahead.getLast?).getD cursor.current).kind

def atEnd (cursor : Cursor) : Bool :=
  cursor.kind == .endOfInput

def position (cursor : Cursor) : Position :=
  cursor.current.span.start

def advance (cursor : Cursor) : Cursor :=
  match cursor.ahead with
  | [] => cursor
  | next :: rest => ⟨cursor.current.span.stop, next, rest⟩

/-- From `start` to the end of what was consumed. -/
def spanFrom (start : Position) (cursor : Cursor) : Span :=
  ⟨start, cursor.behind⟩

def unexpected (cursor : Cursor) : Diagnostic :=
  ⟨.unexpected cursor.current.value, cursor.position⟩

def unexpectedFor (reason : String) (cursor : Cursor) : Diagnostic :=
  ⟨.unexpectedFor cursor.current.value reason, cursor.position⟩

/-- Parsing takes at most one nested step for each token that is left. -/
def fuel (cursor : Cursor) : Nat :=
  cursor.ahead.length + 2

end Cursor
end Multiparty
