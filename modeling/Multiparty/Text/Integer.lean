/-! Integers of the language, which are 64 bits wide, as decimal text. -/

namespace Multiparty.Text

def digitValue (char : Char) : Nat :=
  char.toNat - '0'.toNat

def digitsValue (digits : List Char) : Nat :=
  digits.foldl (fun value digit => 10 * value + digitValue digit) 0

/-- One digit or more, and nothing else. -/
def natural? (digits : List Char) : Option Nat :=
  if digits ≠ [] ∧ digits.all Char.isDigit then some (digitsValue digits) else none

/-- Digits after an optional sign. -/
def signed? : List Char → Option Int
  | '+' :: digits => (natural? digits).map Int.ofNat
  | '-' :: digits => (natural? digits).map fun value => -Int.ofNat value
  | digits => (natural? digits).map Int.ofNat

/-- Refuses what does not fit. -/
def integer? (text : String) : Option Int64 :=
  (signed? text.toList).bind fun value =>
    if Int64.minValue.toInt ≤ value ∧ value ≤ Int64.maxValue.toInt then some (Int64.ofInt value) else none

def decimal (value : Int64) : String :=
  match value.toInt with
  | .ofNat magnitude => toString magnitude
  | .negSucc magnitude => "-" ++ toString (magnitude + 1)

end Multiparty.Text
