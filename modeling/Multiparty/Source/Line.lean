import Multiparty.Text.Bytes

/-! The line on which a byte of a text stands. Lines keep the line break that ends them. -/

namespace Multiparty

/-- The text cut after every line break. No piece is empty. -/
def linePieces : List Char → List (List Char)
  | [] => []
  | char :: rest =>
    if char = '\n' then [char] :: linePieces rest
    else
      match linePieces rest with
      | [] => [[char]]
      | piece :: more => (char :: piece) :: more

/-- `offset` counts the bytes between the start of the line and the place that was looked up. -/
structure Line where
  number : Nat
  text : List Char
  offset : Nat
deriving DecidableEq

namespace Line

/-- The end of the text still belongs to its last line. -/
def among? (number offset : Nat) : List (List Char) → Option Line
  | [] => none
  | [last] => if offset ≤ Text.byteCount last then some ⟨number, last, offset⟩ else none
  | piece :: next :: more =>
    if offset < Text.byteCount piece then some ⟨number, piece, offset⟩
    else among? (number + 1) (offset - Text.byteCount piece) (next :: more)

/-- The line that holds byte `offset`, counted from one. -/
def at? (content : String) (offset : Nat) : Option Line :=
  among? 1 offset (linePieces content.toList)

end Line
end Multiparty
