import HostProfile.Path

/-!
# File trees

The files and directories that a configuration can be found in.
-/

namespace HostProfile

/-- A file with its bytes, or a directory with its entries. -/
inductive FileTree where
  | file (content : ByteArray)
  | directory (entries : List (String × FileTree))

namespace FileTree

/-- The tree without files. -/
def empty : FileTree := directory []

instance : EmptyCollection FileTree := ⟨empty⟩

instance : Inhabited FileTree := ⟨empty⟩

/-- What names lead to from `here`, where `above` are the directories around it, the nearest
first. Only a directory can be gone on from, also by an empty name. -/
def walk (above : List FileTree) (here : FileTree) : List String → Option FileTree
  | [] => some here
  | name :: rest =>
    match here with
    | file _ => none
    | directory entries =>
      if name == "" || name == "." then walk above here rest
      else if name == ".." then
        match above with
        | up :: more => walk more up rest
        | [] => walk [] here rest
      else entries.lookup name >>= fun next => walk (here :: above) next rest

/-- What a path leads to from the top of the tree. -/
def find? (tree : FileTree) (path : String) : Option FileTree := walk [] tree (Path.names path)

/-- Whether there is anything at the path. -/
def exists? (tree : FileTree) (path : String) : Bool := (tree.find? path).isSome

/-- The entries of the directory at the path. -/
def entries? (tree : FileTree) (path : String) : Option (List (String × FileTree)) :=
  match tree.find? path with
  | some (directory entries) => some entries
  | _ => none

/-- Whether there is a directory at the path. -/
def isDirectory (tree : FileTree) (path : String) : Bool := (tree.entries? path).isSome

/-- The bytes of the file at the path. -/
def content? (tree : FileTree) (path : String) : Option ByteArray :=
  match tree.find? path with
  | some (file content) => some content
  | _ => none

/-- Whether there is a file at the path. -/
def isFile (tree : FileTree) (path : String) : Bool := (tree.content? path).isSome

/-- The text of the file at the path. -/
def text? (tree : FileTree) (path : String) : Option String :=
  tree.content? path >>= String.fromUTF8?

mutual

/-- The names that lead to each file and directory inside a tree. -/
def inside : FileTree → List (List String)
  | file _ => []
  | directory entries => insideEntries entries

/-- The names that lead to each file and directory among some entries. -/
def insideEntries : List (String × FileTree) → List (List String)
  | [] => []
  | (name, tree) :: rest => [name] :: tree.inside.map (name :: ·) ++ insideEntries rest

end

/-- The tree with a file or directory at the end of the names. Directories on the way to it are
created, and a directory that is there already keeps its entries. -/
def insert (item : FileTree) : List String → FileTree → FileTree
  | [], tree =>
    match tree, item with
    | directory (entry :: entries), directory [] => directory (entry :: entries)
    | _, item => item
  | name :: rest, tree =>
    let entries :=
      match tree with
      | directory entries => entries
      | file _ => []
    let old := (entries.lookup name).getD empty
    directory (entries.filter (·.1 != name) ++ [(name, insert item rest old)])

/-- The tree of files and directories with their paths. -/
def ofList (items : List (String × FileTree)) : FileTree :=
  items.foldl (fun tree (path, item) => insert item (Path.significant path) tree) empty

end FileTree

end HostProfile
