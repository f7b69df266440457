import HostProfile.Glob
import HostProfile.Proofs.Except
import HostProfile.Proofs.FileTree

/-!
# Patterns with a plain directory

A pattern whose directory has no wildcards is searched in that directory only: the names on the way
are looked up, and a last name that begins with a star finds the entries with its ending.
-/

namespace HostProfile.Glob

open FileTree HostProfile.Path

variable {cs : List Char} {tree : FileTree} {entries : List (String × FileTree)}
  {ns : List String} {path : String}

end HostProfile.Glob
