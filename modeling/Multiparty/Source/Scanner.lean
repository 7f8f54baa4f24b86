import Multiparty.Source.Position
import Multiparty.Text.Bytes

/-! A place in a source text that is moved by counts of bytes. -/

namespace Multiparty

structure Scanner where
  source : String
  file : String
  offset : Nat

namespace Scanner

/-- The file name of a text that came without one. -/
def defaultFile : String := "shell"

def start (source : String) (file? : Option String) : Scanner :=
  ⟨source, file?.getD defaultFile, 0⟩

/-- May run past the end. Offsets are 64 bits wide. -/
def advance (count : Nat) (scanner : Scanner) : Scanner :=
  { scanner with offset := (scanner.offset + count) % UInt64.size }

def atEnd (scanner : Scanner) : Bool :=
  scanner.source.utf8ByteSize ≤ scanner.offset

/-- Nothing past the end or within a character. -/
def remainder? (scanner : Scanner) : Option (List Char) :=
  Text.dropBytes scanner.offset scanner.source.toList

/-- The character that begins here, and the null character at the end. -/
def current? (scanner : Scanner) : Option Char :=
  scanner.remainder?.map fun chars => chars.headD '\x00'

def position (scanner : Scanner) : Position :=
  .ofByte scanner.offset scanner.file

def span (length : Nat) (scanner : Scanner) : Span :=
  .ofBytes scanner.offset length scanner.file

end Scanner
end Multiparty
