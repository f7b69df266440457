import HostProfile.Toml.Value

/-!
# Documents

A document is a sequence of lines. A line gives a value to a path, or is the header of the table
that the paths behind it lie in. `Toml.parse?` reads the lines and then carries them out.
-/

namespace HostProfile.Toml

/-- A line with content. -/
inductive Statement where
  | assign (path : Path) (v : Toml)
  /-- The header of a table. -/
  | openTable (path : Path)
  /-- The header of one of several tables. -/
  | openElement (path : Path)

/-- Reads a path and the end of its header. -/
def header (closing : List Char) : Reader Path := fun cs =>
  match h : path? cs with
  | some (path, rest) =>
    if rest.take closing.length == closing then
      some (path, ⟨rest.drop closing.length, by
        have := length_lt_of_path? h
        simp only [List.length_drop]
        omega⟩)
    else none
  | none => none

/-- Reads a line with content up to its end. -/
def statement : Reader Statement := fun cs =>
  match cs with
  | '[' :: '[' :: rest => do
    let (path, after) ← header [']', ']'] rest
    return (.openElement path, (after.cons '[').cons '[')
  | '[' :: rest => do
    let (path, after) ← header [']'] rest
    return (.openTable path, after.cons '[')
  | cs => (binding (value (nestingLimit - 1)) cs).map fun (b, rest) => (.assign b.1 b.2, rest)

theorem length_lt_of_statement {cs after next : List Char}
    (ha : after.length < (skipLines cs).length) (h : lineEnd? after = some next) :
    next.length < cs.length :=
  Nat.lt_of_le_of_lt (length_le_of_lineEnd? h) (Nat.lt_of_lt_of_le ha (length_skipLines_le cs))

/-- The lines with content. The last line may be a comment without a line break. -/
def statements? (cs : List Char) : Option (List Statement) :=
  if (skipComment (skipLines cs)).isEmpty then some []
  else do
    let (s, ⟨after, ha⟩) ← statement (skipLines cs)
    match h : lineEnd? after with
    | some next =>
      have : next.length < cs.length := length_lt_of_statement ha h
      return s :: (← statements? next)
    | none => none
termination_by cs.length
decreasing_by exact this

/-- An unfinished document: its names, and the path of the table that is being filled. -/
structure Draft where
  entries : Entries := []
  current : List String := []

/-- Carries out a line. -/
def Draft.add (d : Draft) : Statement → Option Draft
  | .assign path v => do
    return { d with entries := ← Entries.within (Entries.assign path v) d.current d.entries }
  | .openTable path => do
    return ⟨← d.entries.openTable path, path.tables ++ [path.name]⟩
  | .openElement path => do
    return ⟨← d.entries.openElement path, path.tables ++ [path.name]⟩

/-- The text without the mark of its encoding, if it begins with one. -/
def dropByteOrderMark : List Char → List Char
  | c :: rest => if c.toNat == 0xFEFF then rest else c :: rest
  | [] => []

/-- The table that a document describes. -/
def parse? (text : String) : Option Toml := do
  let lines ← statements? (dropByteOrderMark text.toList)
  let draft ← lines.foldlM Draft.add {}
  return draft.entries.finish

end HostProfile.Toml
