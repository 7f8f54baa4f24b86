import Multiparty.CommandLine.Run

/-! A disk held in memory, for running the command without touching real files. Paths that do not begin with a
slash start from the working directory. -/

namespace Multiparty.CommandLine

/-- The files by their full paths. A directory is there if a file below it is. -/
structure Disk where
  files : List (List String × ByteArray)
  workingDirectory : List String

inductive Node
  | file (content : ByteArray)
  | directory

namespace Disk

/-- A disk whose working directory is empty. -/
def empty : Disk :=
  ⟨[], ["work"]⟩

def node? (path : List String) (disk : Disk) : Option Node :=
  match disk.files.lookup path with
  | some content => some (.file content)
  | none =>
    if path.isPrefixOf disk.workingDirectory ∨
        disk.files.any (fun file => path.isPrefixOf file.1) then some .directory
    else none

def start (path : String) (disk : Disk) : List String :=
  if path.toList.head? = some '/' then [] else disk.workingDirectory

/-- Follows the components of a path from `place`. -/
def walk (disk : Disk) (place : List String) : List String → Except Fault (List String)
  | [] => .ok place
  | component :: rest =>
    match disk.node? place with
    | none => .error .missing
    | some (.file _) => .error .notDirectory
    | some .directory =>
      if stays component then walk disk place rest
      else if component = ".." then walk disk place.dropLast rest
      else if nameLimit < component.utf8ByteSize then .error .nameTooLong
      else walk disk (place ++ [component]) rest

/-- Follows the components of a path from where `path` starts. -/
def follow (path : String) (components : List String) (disk : Disk) : Except Fault (List String) :=
  if pathLimit < path.utf8ByteSize then .error .nameTooLong
  else disk.walk (disk.start path) components

def read (path : String) (disk : Disk) : Except Fault ByteArray :=
  (disk.follow path (componentsOf path)).bind fun place =>
    match disk.node? place with
    | none => .error .missing
    | some .directory => .error .directory
    | some (.file content) => .ok content

def put (place : List String) (content : ByteArray) (disk : Disk) : Disk :=
  { disk with files := (place, content) :: disk.files.filter fun file => file.1 ≠ place }

/-- Makes the file, but not the directory that it stands in. A path that ends with a slash means a directory. -/
def write (path : String) (content : ByteArray) (disk : Disk) : Except Fault Disk :=
  let steps := componentsOf path
  let named := (steps.reverse.dropWhile (· == "")).reverse
  let last := named.getLast?.getD "."
  (disk.follow path named.dropLast).bind fun place =>
    match disk.node? place with
    | none => .error .missing
    | some (.file _) => .error .notDirectory
    | some .directory =>
      if stays last ∨ last = ".." ∨ named ≠ steps then .error .directory
      else if nameLimit < last.utf8ByteSize then .error .nameTooLong
      else
        match disk.node? (place ++ [last]) with
        | some .directory => .error .directory
        | _ => .ok (disk.put (place ++ [last]) content)

/-- Puts a file under the working directory, along with the directories on its path. -/
def withFile (path : String) (content : ByteArray) (disk : Disk) : Disk :=
  disk.put (disk.start path ++ (componentsOf path).filter fun component => !stays component) content

def fileAccess : Files (StateM Disk) where
  read path := fun disk => (disk.read path, disk)
  write path text := fun disk =>
    match disk.write path text.toUTF8 with
    | .ok after => (.ok (), after)
    | .error fault => (.error fault, disk)

end Disk
end Multiparty.CommandLine
