import HostProfile.Config.Loader
import HostProfile.Proofs.Except
import HostProfile.Proofs.Glob
import HostProfile.Proofs.Sorting

/-!
# Which fragments are found

In a root directory without wildcards in its path, the fragments are the regular files of its
fragment directory whose names end in `.toml`, each once and in the order of their names. Wildcards
in the path let the fragments of other directories be found in their place.
-/

namespace HostProfile.Config

open FileTree HostProfile.Path

variable {tree : FileTree} {root directory name : String} {entries : List (String × FileTree)}

instance : Std.ReflCmp Path.compareNames where
  compare_self := by simp [Path.compareNames]

end HostProfile.Config
