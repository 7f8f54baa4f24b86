import Multiparty.Parsing.Cursor

/-! Parsers: functions on the cursor that consume tokens. A failure tells where the parser stopped. -/

namespace Multiparty

/-- `exhausted` says that a bound on the number of steps was too small, not that the program is wrong. -/
inductive Outcome (α : Type)
  | done (value : α) (next : Cursor)
  | failed (diagnostic : Diagnostic) (stopped : Cursor)
  | exhausted

def Parser (α : Type) : Type :=
  Cursor → Outcome α

namespace Parser
open Token

instance : Monad Parser where
  pure value := fun cursor => .done value cursor
  bind parser next := fun cursor =>
    match parser cursor with
    | .done value after => next value after
    | .failed diagnostic stopped => .failed diagnostic stopped
    | .exhausted => .exhausted

def exhausted {α : Type} : Parser α :=
  fun _ => .exhausted

def fail {α : Type} (diagnostic : Diagnostic) : Parser α :=
  fun cursor => .failed diagnostic cursor

def unexpected {α : Type} : Parser α :=
  fun cursor => .failed cursor.unexpected cursor

def unexpectedFor {α : Type} (reason : String) : Parser α :=
  fun cursor => .failed (cursor.unexpectedFor reason) cursor

def kind : Parser Kind :=
  fun cursor => .done cursor.kind cursor

def kindAhead (distance : Nat) : Parser Kind :=
  fun cursor => .done (cursor.kindAhead distance) cursor

def position : Parser Position :=
  fun cursor => .done cursor.position cursor

def spanFrom (start : Position) : Parser Span :=
  fun cursor => .done (cursor.spanFrom start) cursor

/-- Consumes the current token, whatever it is. -/
def advance : Parser Token :=
  fun cursor => .done cursor.current cursor.advance

def expect (wanted : Kind) : Parser Token :=
  fun cursor =>
    if cursor.kind = wanted then .done cursor.current cursor.advance
    else .failed cursor.unexpected cursor

/-- Like `expect`, with `reason` to say what was wanted. -/
def expectFor (wanted : Kind) (reason : String) : Parser Token :=
  fun cursor =>
    if cursor.kind = wanted then .done cursor.current cursor.advance
    else .failed (cursor.unexpectedFor reason) cursor

def manyWithin {α : Type} (continues : Cursor → Bool) (item : Parser α) : Nat → Parser (List α)
  | 0 => exhausted
  | fuel + 1 => fun cursor =>
    if continues cursor then
      (do
        let first ← item
        let rest ← manyWithin continues item fuel
        return first :: rest) cursor
    else .done [] cursor

/-- One item after the other for as long as `continues` holds. -/
def many {α : Type} (continues : Cursor → Bool) (item : Parser α) : Parser (List α) :=
  fun cursor => manyWithin continues item cursor.fuel cursor

/-- The comma after an item, which the last item need not have. -/
def separator (reason : String) : Parser Unit := do
  match ← kind with
  | .closeParen => return ()
  | _ => do
    let _ ← expectFor .comma reason
    return ()

/-- Items in parentheses with commas between them. -/
def commaSeparated {α : Type} (item : Parser α) (reason : String) : Parser (List α) := do
  let _ ← expect .openParen
  let items ← many (fun cursor => cursor.kind ≠ .closeParen) do
    let value ← item
    separator reason
    return value
  let _ ← expect .closeParen
  return items

end Parser
end Multiparty
