/-! Places in source files. Offsets count bytes of UTF-8 from the start of the file. -/

namespace Multiparty

structure Position where
  offset : Nat
  file : String
deriving DecidableEq

namespace Position

/-- Offsets are 32 bits wide: a place past the fourth gigabyte wraps around. -/
def ofByte (byte : Nat) (file : String) : Position :=
  ⟨byte % UInt32.size, file⟩

/-- The place of whatever was not read from a file. -/
def nowhere : Position :=
  ⟨0, "<null>"⟩

end Position

/-- The text from `start` up to, but not including, `stop`. -/
structure Span where
  start : Position
  stop : Position
deriving DecidableEq

namespace Span

def nowhere : Span :=
  ⟨.nowhere, .nowhere⟩

/-- The `length` bytes that begin at `byte`. -/
def ofBytes (byte length : Nat) (file : String) : Span :=
  ⟨.ofByte byte file, .ofByte (byte + length) file⟩

/-- From the start of the first span to the end of the second. -/
def join (first last : Span) : Span :=
  ⟨first.start, last.stop⟩

end Span
end Multiparty
