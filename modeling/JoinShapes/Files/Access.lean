import JoinShapes.Files.Tree

/-!
# Access to files

The file operations that a run needs, for any monad that has them. A `Disk` as state is one; the files of the machine
are another.
-/

namespace JoinShapes

/-- Reading, making directories and writing. -/
class FileAccess (m : Type → Type) where
  /-- The number of directories above the working directory. -/
  depth : m Nat
  /-- The content of a file, or what the system says of a file that cannot be read. -/
  read : String → m (Except String ByteArray)
  /-- Makes a directory and all that lead to it; whether it is there now. -/
  makeDirectories : String → m Bool
  /-- Writes a file; whether it could be written. -/
  write : String → String → m Bool

/-- A computation on a file tree. -/
abbrev OnDisk := StateM Disk

instance : FileAccess OnDisk where
  depth := fun d => (d.here.length, d)
  read path := fun d => ((d.read path).mapError ReadFault.message, d)
  makeDirectories path := fun d => let (d, isDone) := d.makeDirectories path; (isDone, d)
  write path text := fun d => let (d, isDone) := d.write path text.toUTF8; (isDone, d)

/-- The text that a file holds. -/
def textOf (content : ByteArray) : Except String String :=
  match String.fromUTF8? content with
  | some text => .ok text
  | none => .error ReadFault.notText.message

/-- The text of a file, or what is said of a file that cannot be read or holds none. -/
def readText {m : Type → Type} [Monad m] [FileAccess m] (path : String) : m (Except String String) := do
  return (← FileAccess.read path) >>= textOf

end JoinShapes
