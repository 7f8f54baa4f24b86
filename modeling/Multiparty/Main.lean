import Multiparty.CommandLine.Run

/-! The command itself: real files, and the standard streams. -/

namespace Multiparty.CommandLine

/-- Some operations give the number of an error with its sign changed. -/
def errorNumber (code : UInt32) : Nat :=
  if code.toNat < UInt32.size / 2 then code.toNat else UInt32.size - code.toNat

def Fault.ofCode (code : UInt32) (details : String) : Fault :=
  match errorNumber code with
  | 2 => .missing
  | 20 => .notDirectory
  | 21 => .directory
  | 36 => .nameTooLong
  | number => .other (details.capitalize ++ " (os error " ++ toString number ++ ")")

def Fault.ofError : IO.Error → Fault
  | .alreadyExists _ code details | .otherError code details | .resourceBusy code details
  | .resourceVanished code details | .unsupportedOperation code details
  | .hardwareFault code details | .unsatisfiedConstraints code details
  | .illegalOperation code details | .protocolError code details | .timeExpired code details
  | .interrupted _ code details | .noFileOrDirectory _ code details
  | .invalidArgument _ code details | .permissionDenied _ code details
  | .resourceExhausted _ code details | .inappropriateType _ code details
  | .noSuchThing _ code details => .ofCode code details
  | .unexpectedEof => .other "unexpected end of file"
  | .userError message => .other message

def systemFiles : Files IO where
  read path := do
    try
      return .ok (← IO.FS.readBinFile path)
    catch error => return .error (.ofError error)
  write path text := do
    try
      IO.FS.writeFile path text
      return .ok ()
    catch error => return .error (.ofError error)

end Multiparty.CommandLine

def main (arguments : List String) : IO UInt32 := do
  let exit ← Multiparty.CommandLine.run Multiparty.CommandLine.systemFiles arguments
  IO.print exit.output
  IO.eprint exit.errors
  return exit.code.toUInt32
