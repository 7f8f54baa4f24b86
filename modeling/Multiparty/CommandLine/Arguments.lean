/-! The arguments of the command. -/

namespace Multiparty.CommandLine

/-- What to write once a program checks: a confirmation, or the program in its canonical form. -/
inductive Emit
  | check
  | source
deriving DecidableEq

structure Request where
  input : String
  output? : Option String
  strictDisplay : Bool
  emit : Emit
deriving DecidableEq

inductive Command
  | version
  | run (request : Request)
deriving DecidableEq

inductive UsageError
  | unexpectedArgument (argument : String)
  | repeatedOption (option : String)
  | missingValue (option : String)
  | unknownEmit (value : String)
  | missingInput
deriving DecidableEq

namespace UsageError

def message : UsageError → String
  | .unexpectedArgument argument => "unexpected argument " ++ argument
  | .repeatedOption option => option ++ " is given more than once"
  | .missingValue option => option ++ " needs a value"
  | .unknownEmit value => "--emit is check or source, not " ++ value
  | .missingInput => "no input file"

end UsageError

/-- A single argument. An option may have its value attached, as in `-oFILE` and `--output=FILE`. -/
inductive Argument
  | version
  | strictDisplay
  | output (value? : Option String)
  | emit (value? : Option String)
  | input (path : String)
  | unknown
deriving DecidableEq

namespace Argument

/-- The part before the first `=`, and the part after it. -/
def splitValue (chars : List Char) : String × Option String :=
  let name := chars.takeWhile (· ≠ '=')
  match chars.drop name.length with
  | [] => (String.ofList name, none)
  | _ :: value => (String.ofList name, some (String.ofList value))

def ofLong (chars : List Char) : Argument :=
  match splitValue chars with
  | ("version", none) => .version
  | ("strict-display", none) => .strictDisplay
  | ("output", value?) => .output value?
  | ("emit", value?) => .emit value?
  | _ => .unknown

/-- A dash by itself is the name of a file. -/
def ofString (text : String) : Argument :=
  match text.toList with
  | '-' :: '-' :: rest => ofLong rest
  | ['-', 'o'] => .output none
  | '-' :: 'o' :: '=' :: value => .output (some (String.ofList value))
  | '-' :: 'o' :: value => .output (some (String.ofList value))
  | '-' :: 'V' :: _ => .version
  | '-' :: _ :: _ => .unknown
  | _ => .input text

end Argument

/-- Whether an argument cannot be the value of the option before it. -/
def isOption (text : String) : Bool :=
  match text.toList with
  | '-' :: _ :: _ => true
  | _ => false

/-- What the arguments so far have settled. -/
structure Settled where
  input? : Option String
  output? : Option String
  strictDisplay : Bool
  emit? : Option Emit

namespace Settled

def empty : Settled :=
  ⟨none, none, false, none⟩

def addInput (path : String) (settled : Settled) : Except UsageError Settled :=
  if path.isEmpty ∨ settled.input?.isSome then .error (.unexpectedArgument path)
  else .ok { settled with input? := some path }

def addOutput (path : String) (settled : Settled) : Except UsageError Settled :=
  if path.isEmpty then .error (.missingValue "--output")
  else if settled.output?.isSome then .error (.repeatedOption "--output")
  else .ok { settled with output? := some path }

def addEmit (value : String) (settled : Settled) : Except UsageError Settled :=
  if settled.emit?.isSome then .error (.repeatedOption "--emit")
  else if value = "check" then .ok { settled with emit? := some .check }
  else if value = "source" then .ok { settled with emit? := some .source }
  else .error (.unknownEmit value)

def addStrictDisplay (settled : Settled) : Except UsageError Settled :=
  if settled.strictDisplay then .error (.repeatedOption "--strict-display")
  else .ok { settled with strictDisplay := true }

def request (settled : Settled) : Except UsageError Request :=
  match settled.input? with
  | some input =>
    .ok ⟨input, settled.output?, settled.strictDisplay, settled.emit?.getD .check⟩
  | none => .error .missingInput

end Settled

/-- After `--` every argument is an input. -/
def readInputs (settled : Settled) : List String → Except UsageError Settled
  | [] => .ok settled
  | path :: rest => (settled.addInput path).bind fun settled => readInputs settled rest

def readFrom (settled : Settled) : List String → Except UsageError Command
  | [] => settled.request.map .run
  | text :: rest =>
    if text = "--" then ((readInputs settled rest).bind Settled.request).map .run
    else
      match Argument.ofString text with
      | .version => .ok .version
      | .unknown => .error (.unexpectedArgument text)
      | .strictDisplay => settled.addStrictDisplay.bind fun settled => readFrom settled rest
      | .input path => (settled.addInput path).bind fun settled => readFrom settled rest
      | .output (some path) => (settled.addOutput path).bind fun settled => readFrom settled rest
      | .emit (some value) => (settled.addEmit value).bind fun settled => readFrom settled rest
      | .output none =>
        match rest with
        | [] => .error (.missingValue "--output")
        | path :: others =>
          if isOption path then .error (.missingValue "--output")
          else (settled.addOutput path).bind fun settled => readFrom settled others
      | .emit none =>
        match rest with
        | [] => .error (.missingValue "--emit")
        | value :: others =>
          if isOption value then .error (.missingValue "--emit")
          else (settled.addEmit value).bind fun settled => readFrom settled others

/-- Options and the input may come in any order. -/
def Command.ofArguments (arguments : List String) : Except UsageError Command :=
  readFrom .empty arguments

end Multiparty.CommandLine
