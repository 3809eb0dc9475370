import JoinShapes.Files.Path

/-!
# File trees

A file tree is a file or a directory of named file trees. A `Disk` is a tree with a working directory. Reading, making
directories and writing are functions on disks; what fails leaves the disk as far as it got.
-/

namespace JoinShapes

/-- Why the text of a file cannot be read. -/
inductive ReadFault
  | notFound
  | notADirectory
  | isADirectory
  | nameTooLong
  | nullInPath
  | notText
deriving DecidableEq, Repr

/-- What the system says of a file that cannot be read. -/
def ReadFault.message : ReadFault → String
  | notFound => "No such file or directory (os error 2)"
  | notADirectory => "Not a directory (os error 20)"
  | isADirectory => "Is a directory (os error 21)"
  | nameTooLong => "File name too long (os error 36)"
  | nullInPath => "file name contained an unexpected NUL byte"
  | notText => "stream did not contain valid UTF-8"

/-- A file or a directory. -/
inductive FileTree
  | file (content : ByteArray)
  | directory (entries : List (String × FileTree))

namespace FileTree

/-- The entry of a directory. -/
def child? (t : FileTree) (name : String) : Option FileTree :=
  match t with
  | directory es => (es.find? (·.1 == name)).map (·.2)
  | file _ => none

/-- The directory with an entry set. -/
def setChild (t : FileTree) (name : String) (child : FileTree) : FileTree :=
  match t with
  | directory es =>
    if es.any (·.1 == name) then directory (es.map fun e => if e.1 == name then (name, child) else e)
    else directory (es ++ [(name, child)])
  | file content => file content

/-- What stands at the end of some names. -/
def get? (t : FileTree) : List String → Option FileTree
  | [] => some t
  | n :: ns => (t.child? n).bind (·.get? ns)

/-- The tree with something else at the end of some names; only the last of them may be new. -/
def put (new : FileTree) (t : FileTree) : List String → FileTree
  | [] => new
  | n :: ns =>
    match t.child? n with
    | some u => t.setChild n (put new u ns)
    | none => if ns.isEmpty then t.setChild n new else t

/-- The longest name of a file or a directory, in bytes. -/
def maxNameSize : Nat := 255

/-- Whether something may be given this name. -/
def isName (name : String) : Bool := name.utf8ByteSize ≤ maxNameSize && !name.toList.contains '\x00'

/-- Follows names from a directory through directories; the names of the place that is reached. -/
def walk (t : FileTree) (place : List String) : List String → Option (List String)
  | [] => some place
  | n :: ns =>
    if n = ".." then walk t place.dropLast ns
    else
      match t.get? (place ++ [n]) with
      | some (directory _) => walk t (place ++ [n]) ns
      | _ => none

/-- Why no file can be read at the end of some names: where they lead to one, more is to follow. -/
def readFault (t : FileTree) (place : List String) : List String → ReadFault
  | [] => .isADirectory
  | n :: ns =>
    if n = ".." then readFault t place.dropLast ns
    else
      match t.get? (place ++ [n]) with
      | some (directory _) => readFault t (place ++ [n]) ns
      | some (file _) => .notADirectory
      | none => if isName n then .notFound else .nameTooLong

/-- Follows names from a directory and makes those that are missing; whether the end was reached. -/
def makeDirectories (t : FileTree) (place : List String) : List String → FileTree × Bool
  | [] => (t, true)
  | n :: ns =>
    if n = ".." then makeDirectories t place.dropLast ns
    else
      match t.get? (place ++ [n]) with
      | some (directory _) => makeDirectories t (place ++ [n]) ns
      | some (file _) => (t, false)
      | none =>
        if isName n then makeDirectories (put (directory []) t (place ++ [n])) (place ++ [n]) ns else (t, false)

end FileTree

/-- A file tree seen from one of its directories. -/
structure Disk where
  root : FileTree
  /-- The names that lead to the working directory. -/
  here : List String

namespace Disk

/-- Where a way starts. -/
def origin (d : Disk) (r : Path.Route) : List String := if r.isAbsolute then [] else d.here

/-- The names of the file that a path describes, whether it is there or not; its directory has to be. -/
def locate? (d : Disk) (path : String) : Option (List String) :=
  let r := Path.route path
  match r.names.getLast? with
  | none => none
  | some last =>
    if r.isDirectory || !Path.isUsable path then none
    else (d.root.walk (d.origin r) r.names.dropLast).map (· ++ [last])

/-- The content of a file. -/
def read? (d : Disk) (path : String) : Option ByteArray :=
  match (d.locate? path).bind d.root.get? with
  | some (.file content) => some content
  | _ => none

/-- Why a path leads to no file that can be read. -/
def readFault (d : Disk) (path : String) : ReadFault :=
  if path.toList.contains '\x00' then .nullInPath
  else if Path.maxSize < path.utf8ByteSize then .nameTooLong
  else if path.isEmpty then .notFound
  else let r := Path.route path; d.root.readFault (d.origin r) r.names

/-- The content of a file, or why it cannot be read. -/
def read (d : Disk) (path : String) : Except ReadFault ByteArray :=
  match d.read? path with
  | some content => .ok content
  | none => .error (d.readFault path)

/-- Makes a directory and all that lead to it; whether it is there now. -/
def makeDirectories (d : Disk) (path : String) : Disk × Bool :=
  if !Path.isUsable path then (d, false)
  else
    let r := Path.route path
    let (root, isDone) := d.root.makeDirectories (d.origin r) r.makeable
    ({ d with root := root }, isDone && (root.walk (d.origin r) r.names).isSome)

/-- Writes a file, new or not; whether it could be written. -/
def write (d : Disk) (path : String) (content : ByteArray) : Disk × Bool :=
  match d.locate? path with
  | none => (d, false)
  | some names =>
    match d.root.get? names with
    | some (.directory _) => (d, false)
    | some (.file _) => ({ d with root := FileTree.put (.file content) d.root names }, true)
    | none =>
      if names.getLast?.any FileTree.isName then ({ d with root := FileTree.put (.file content) d.root names }, true)
      else (d, false)

end Disk
end JoinShapes
