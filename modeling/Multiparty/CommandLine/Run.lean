import Multiparty.CommandLine.Arguments
import Multiparty.CommandLine.Path
import Multiparty.Diagnostic.Report
import Multiparty.FrontEnd

/-! What the command does with a source file. It reaches files only through `Files`. -/

namespace Multiparty.CommandLine

/-- Why a file could not be read or written. -/
inductive Fault
  | missing
  | directory
  | notDirectory
  | nameTooLong
  | notText
  | other (reason : String)
deriving DecidableEq

namespace Fault

def reason : Fault → String
  | .missing => "No such file or directory (os error 2)"
  | .directory => "Is a directory (os error 21)"
  | .notDirectory => "Not a directory (os error 20)"
  | .nameTooLong => "File name too long (os error 36)"
  | .notText => "stream did not contain valid UTF-8"
  | .other reason => reason

end Fault

structure Files (m : Type → Type) where
  read : String → m (Except Fault ByteArray)
  write : String → String → m (Except Fault Unit)

structure Exit where
  code : Nat
  output : String
  errors : String
deriving DecidableEq

def versionText : String := "smcl 0.1.0\n"

def success (output : String) : Exit :=
  ⟨0, output, ""⟩

def failure (errors : String) : Exit :=
  ⟨1, "", errors⟩

def usageFailure (error : UsageError) : Exit :=
  ⟨2, "", "error: " ++ error.message ++ "\n"⟩

def fileFailure (action path : String) (fault : Fault) : Exit :=
  failure ("Error: failed to " ++ action ++ " " ++ path ++ "\n\nCaused by:\n    " ++ fault.reason ++ "\n")

def emitted (emit : Emit) (file : String) (program : Typed.Program) : String :=
  match emit with
  | .check =>
    file ++ ": ok (" ++ toString program.clients.length ++ " clients, server " ++
      program.server.name ++ ")\n"
  | .source => program.print

def decode (bytes : ByteArray) : Except Fault String :=
  match String.fromUTF8? bytes with
  | some text => .ok text
  | none => .error .notText

variable {m : Type → Type} [Monad m]

/-- Nothing is written unless the program checks. -/
def answer (files : Files m) (request : Request) : m Exit := do
  match (← files.read request.input).bind decode with
  | .error fault => return fileFailure "read" request.input fault
  | .ok source =>
    let file := fileName request.input
    match checkSource ⟨request.strictDisplay⟩ source file with
    | .error diagnostic => return failure (diagnostic.report source file)
    | .ok program =>
      let text := emitted request.emit file program
      match request.output? with
      | none => return success text
      | some path =>
        match ← files.write path text with
        | .ok () => return success ""
        | .error fault => return fileFailure "write" path fault

def run (files : Files m) (arguments : List String) : m Exit :=
  match Command.ofArguments arguments with
  | .error error => return usageFailure error
  | .ok .version => return success versionText
  | .ok (.run request) => answer files request

end Multiparty.CommandLine
