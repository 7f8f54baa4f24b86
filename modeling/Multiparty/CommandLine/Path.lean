/-! File paths, whose components are separated by slashes. -/

namespace Multiparty.CommandLine

/-- Adjacent slashes have an empty component between them. -/
def components (path : List Char) : List (List Char) :=
  match path with
  | [] => [[]]
  | '/' :: rest => [] :: components rest
  | char :: rest =>
    match components rest with
    | [] => [[char]]
    | first :: others => (char :: first) :: others

/-- A component that leads nowhere else. -/
def stays (component : String) : Bool :=
  component == "" || component == "."

def componentsOf (path : String) : List String :=
  (components path.toList).map String.ofList

/-- The most bytes that a component may have. -/
def nameLimit : Nat := 255

/-- The most bytes that a whole path may have. -/
def pathLimit : Nat := 4095

/-- The last component, or the whole path if it ends in a step upwards or has no name in it. -/
def fileName (path : String) : String :=
  match ((componentsOf path).filter fun component => !stays component).getLast? with
  | none => path
  | some last => if last = ".." then path else last

end Multiparty.CommandLine
