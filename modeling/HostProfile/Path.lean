/-!
# Paths

A path is a text in which slashes separate names. `.` stands for the directory that it follows and
`..` for the one above it.
-/

namespace HostProfile.Path

/-- The stretches of a text between slashes. -/
def split : List Char → List (List Char)
  | [] => [[]]
  | c :: rest =>
    if c == '/' then [] :: split rest
    else
      match split rest with
      | first :: more => (c :: first) :: more
      | [] => [[c]]

/-- The names of a path, among which there may be empty ones. -/
def names (path : String) : List String := (split path.toList).map String.ofList

/-- Whether the path starts at the top of all directories. -/
def isAbsolute (path : String) : Bool := path.toList.head? == some '/'

/-- The path of a name in a directory. An absolute name stands for itself, and the empty name for
the directory with a slash behind it. -/
def join (directory name : String) : String :=
  if isAbsolute name || directory.isEmpty then name
  else if directory.toList.getLast? == some '/' then directory ++ name
  else directory ++ "/" ++ name

/-- The order of two names, in which `..` comes first. -/
def compareNames (a b : String) : Ordering :=
  (compare (a != "..") (b != "..")).then (compare a b)

/-- The names that count when paths are compared. -/
def significant (path : String) : List String :=
  (names path).filter fun name => name != "" && name != "."

/-- The order of two paths, name by name. -/
protected def compare (a b : String) : Ordering :=
  List.compareLex compareNames (significant a) (significant b)

end HostProfile.Path
