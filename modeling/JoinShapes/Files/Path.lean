/-!
# Paths

Paths as text, their parts separated by slashes. `Path.join` is plain text work; `Path.route` takes a path apart for
those who follow it.
-/

namespace JoinShapes
namespace Path

/-- A path below a directory; an absolute path replaces the directory. -/
def join (directory name : String) : String :=
  let d := directory.toList
  let n := name.toList
  if n.head? = some '/' ∨ d = [] then name
  else if d.getLast? = some '/' then directory ++ name
  else directory ++ "/" ++ name

/-- The texts between the slashes. -/
def pieces : List Char → List (List Char)
  | [] => [[]]
  | c :: cs => if c = '/' then [] :: pieces cs else (pieces cs).modifyHead (c :: ·)

/-- The longest path that is followed, in bytes. -/
def maxSize : Nat := 4095

/-- Whether a path is followed at all. -/
def isUsable (path : String) : Bool := path.utf8ByteSize ≤ maxSize && !path.toList.contains '\x00'

/-- A path as the way that it describes. -/
structure Route where
  isAbsolute : Bool
  /-- The names to follow, without those that stay in place. -/
  names : List String
  /-- Whether the last piece of the path can only stand for a directory. -/
  isDirectory : Bool
  /-- Whether the path ends in a dot that stays in place, with or without slashes after it. -/
  endsInDot : Bool

/-- Whether a piece stays in place. -/
def staysInPlace (piece : String) : Bool := piece.isEmpty || piece == "."

/-- The way that a path describes. -/
def route (path : String) : Route :=
  let ps := (pieces path.toList).map String.ofList
  { isAbsolute := path.toList.head? == some '/'
    names := ps.filter fun p => !staysInPlace p
    isDirectory := ps.getLast?.any fun p => staysInPlace p || p == ".."
    endsInDot := (ps.filter fun p => !p.isEmpty).getLast? == some "." }

/-- The names of the directories that may be made for a way. No directory can be made by the name of a dot, so that
what a dot comes after has to be there already. -/
def Route.makeable (r : Route) : List String := if r.endsInDot then r.names.dropLast else r.names

end Path
end JoinShapes
