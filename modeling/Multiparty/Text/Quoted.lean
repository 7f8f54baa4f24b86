import Multiparty.Text.Shapeless
import Multiparty.Text.Extending

/-! The quoted form in which messages show a text: between double quotes, with everything that would not
show by itself written as an escape. -/

namespace Multiparty.Text

/-- The Hangul fillers: letters, but blank ones. -/
def isFiller (char : Char) : Bool :=
  char ∈ ['\u115F', '\u1160', '\u3164', '\uFFA0']

/-- The halfwidth sound marks belong to the character before them, yet take a column of their own. -/
def isSoundMark (char : Char) : Bool :=
  char ∈ ['\uFF9E', '\uFF9F']

/-- A character is seen if it has a shape and does not merge with its neighbour. Plain ASCII needs no table. -/
def showsItself (char : Char) : Bool :=
  if char.toNat < 0x7F then 0x20 ≤ char.toNat
  else isSoundMark char || !(isShapeless char || isFiller char || isExtending char)

def codeEscape (char : Char) : List Char :=
  ['\\', 'u', '\x7b'] ++ Nat.toDigits 16 char.toNat ++ ['\x7d']

def quotedChar (char : Char) : List Char :=
  if char = '"' then ['\\', '"']
  else if char = '\\' then ['\\', '\\']
  else if char = '\n' then ['\\', 'n']
  else if char = '\r' then ['\\', 'r']
  else if char = '\t' then ['\\', 't']
  else if char = '\x00' then ['\\', '0']
  else if showsItself char then [char]
  else codeEscape char

def quoted (text : String) : String :=
  "\"" ++ String.ofList (text.toList.flatMap quotedChar) ++ "\""

end Multiparty.Text
