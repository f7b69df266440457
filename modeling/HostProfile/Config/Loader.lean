import HostProfile.Config.Text
import HostProfile.Glob

/-!
# Loading settings

The settings of a host lie in a root directory: in the file `profile.toml`, and in the fragments of
the directory `profile.d`, whose names end in `.toml`. Every file is applied on top of the ones
before it, the fragments in the order of their paths. An overlay is a second directory of the same
make, which is applied on top of the root.
-/

namespace HostProfile.Config

/-- The root directory of a host that names none. -/
def systemRoot : String := "/etc/buckos"

/-- The environment variable that names the root directory. -/
def rootVariable : String := "BUCKOS_CONFIG_ROOT"

/-- The name of the first file of a directory. -/
def settingsFile : String := "profile.toml"

/-- The name of the directory of the fragments. -/
def fragmentDirectory : String := "profile.d"

/-- The root directory, given the value of the environment variable. -/
def rootOf (value : Option String) : String := value.getD systemRoot

/-- The text of a file. -/
def readText (tree : FileTree) (path : String) : Except Error String :=
  match tree.text? path with
  | some text => .ok text
  | none => .error (.unreadable path)

/-- The fragment in a file. -/
def readFragment (tree : FileTree) (path : String) : Except Error Fragment := do
  Fragment.parse path (← readText tree path)

/-- The settings in a file. -/
def readSettings (tree : FileTree) (path : String) : Except Error Settings := do
  if !tree.exists? path then throw (.notFound path)
  Settings.parse path (← readText tree path)

/-- The paths of the fragments of a root directory, in their order. Wildcards in the path of the
directory count as such. -/
def fragmentPaths (tree : FileTree) (root : String) : Except Error (List String) :=
  let directory := Path.join root fragmentDirectory
  let pattern := Path.join directory "*.toml"
  if tree.isDirectory directory then
    match Glob.parse? pattern with
    | some glob =>
      let files := (glob.matches tree).filter tree.isFile
      .ok (files.mergeSort fun a b => (Path.compare a b).isLE)
    | none => .error (.badPattern pattern)
  else .ok []

/-- The fragments of a root directory, that of the first file included. -/
def readFragments (tree : FileTree) (root : String) : Except Error (List Fragment) := do
  let first := Path.join root settingsFile
  let base ← if tree.isFile first then [first].mapM (readFragment tree) else pure []
  let paths ← fragmentPaths tree root
  return base ++ (← paths.mapM (readFragment tree))

/-- The settings with fragments applied one after another. -/
def Settings.applyAll (s : Settings) (fragments : List Fragment) : Settings :=
  fragments.foldl Settings.apply s

/-- How settings are loaded. -/
structure Loader where
  root : String
  /-- A missing root directory stands for the default settings. -/
  useDefaults : Bool := true
  /-- Settings that are not in order are refused. -/
  validates : Bool := true
  deriving DecidableEq, Repr

namespace Loader

/-- The settings, if they are in order or need not be. -/
def check (l : Loader) (s : Settings) : Except Error Settings := do
  if l.validates then s.validate
  return s

/-- Loads the settings of the root directory. -/
def load (l : Loader) (tree : FileTree) : Except Error Settings := do
  if tree.exists? l.root then
    l.check (({} : Settings).applyAll (← readFragments tree l.root))
  else if l.useDefaults then return {}
  else throw (.notFound l.root)

/-- Loads the settings of the root directory with those of the overlay on top. -/
def loadWithOverlay (l : Loader) (tree : FileTree) (overlay : String) :
    Except Error Settings := do
  let s ← l.load tree
  if tree.exists? overlay then l.check (s.applyAll (← readFragments tree overlay))
  else return s

/-- The path of a file in the root directory. -/
def path (l : Loader) (name : String) : String := Path.join l.root name

/-- Whether the file is there. -/
def has (l : Loader) (tree : FileTree) (name : String) : Bool := tree.exists? (l.path name)

end Loader

/-- Loads the settings of the host, given the value of the environment variable. -/
def loadSystem (tree : FileTree) (value : Option String) : Except Error Settings :=
  ({ root := rootOf value } : Loader).load tree

end HostProfile.Config
