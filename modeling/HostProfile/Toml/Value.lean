import HostProfile.Toml.Node
import HostProfile.Toml.Scalar

/-!
# Reading values

A value is quoted text, a scalar without quotes, an array or a table in braces. An array may be
spread over lines and have a comma behind its last element; a table in braces stands on one line
and is built like the tables of a document. Each level of nesting has its own reader, made from
the reader of the level below.
-/

namespace HostProfile.Toml

/-- Characters left over after at least one of `cs` was taken. -/
abbrev Shorter (cs : List Char) : Type := { rest : List Char // rest.length < cs.length }

/-- What is left over when one more character was taken in front. -/
def Shorter.cons {cs : List Char} (c : Char) (rest : Shorter cs) : Shorter (c :: cs) :=
  ⟨rest.val, Nat.lt_succ_of_lt rest.property⟩

/-- Takes something from the front and hands back what follows it. -/
abbrev Reader (α : Type) : Type := (cs : List Char) → Option (α × Shorter cs)

/-- Reads quoted text. -/
def quoted : Reader Toml := fun cs =>
  match h : text? cs with
  | some q => some (.str (String.ofList q.1), ⟨q.2, length_lt_of_text? h⟩)
  | none => none

/-- Reads a scalar without quotes. -/
def unquoted : Reader Toml := fun cs =>
  match h : run? cs with
  | some (v, rest) => some (v, ⟨rest, length_lt_of_run? h⟩)
  | none => none

theorem length_lt_of_value {c : Char} {path : Path} {cs rest more : List Char}
    (h : path? cs = some (path, c :: rest)) (hv : more.length < (skipSpace rest).length) :
    more.length < cs.length := by
  have := length_lt_of_path? h
  have := length_skipSpace_le rest
  simp only [List.length_cons] at *
  omega

/-- Reads a path, an equals sign and a value. -/
def binding (value : Reader Toml) : Reader (Path × Toml) := fun cs =>
  match h : path? cs with
  | some (path, '=' :: rest) => do
    let (v, ⟨more, hv⟩) ← value (skipSpace rest)
    return ((path, v), ⟨more, length_lt_of_value h hv⟩)
  | _ => none

theorem length_lt_of_element {c : Char} {cs rest more : List Char}
    (hv : rest.length < (skipLines cs).length) (h : skipLines rest = c :: more) :
    more.length < cs.length :=
  Nat.lt_trans (length_lt_of_skipLines h) (Nat.lt_of_lt_of_le hv (length_skipLines_le cs))

/-- Reads the elements of an array and its closing bracket. -/
def elements (value : Reader Toml) (cs : List Char) : Option (List Toml × Shorter cs) :=
  match value (skipLines cs) with
  | some (v, ⟨rest, hv⟩) =>
    match h : skipLines rest with
    | ']' :: more => some ([v], ⟨more, length_lt_of_element hv h⟩)
    | ',' :: more =>
      have lt : more.length < cs.length := length_lt_of_element hv h
      (elements value more).map fun (vs, ⟨after, ha⟩) => (v :: vs, ⟨after, Nat.lt_trans ha lt⟩)
    | _ => none
  | none =>
    match h : skipLines cs with
    | ']' :: rest => some ([], ⟨rest, length_lt_of_skipLines h⟩)
    | _ => none
termination_by cs.length
decreasing_by exact lt

theorem length_lt_of_binding {c : Char} {cs rest more : List Char}
    (hb : rest.length < cs.length) (h : skipSpace rest = c :: more) : more.length < cs.length :=
  Nat.lt_trans (length_lt_of_skipSpace h) hb

/-- Reads the bindings of a table in braces and its closing brace. -/
def bindings (value : Reader Toml) (cs : List Char) :
    Option (List (Path × Toml) × Shorter cs) := do
  let (b, ⟨rest, hb⟩) ← binding value cs
  match h : skipSpace rest with
  | '\x7d' :: more => some ([b], ⟨more, length_lt_of_binding hb h⟩)
  | ',' :: more =>
    have lt : more.length < cs.length := length_lt_of_binding hb h
    (bindings value more).map fun (bs, ⟨after, ha⟩) => (b :: bs, ⟨after, Nat.lt_trans ha lt⟩)
  | _ => none
termination_by cs.length
decreasing_by exact lt

/-- Reads what follows the opening brace of a table. -/
def braced (value : Reader Toml) : Reader Toml := fun cs =>
  match h : skipSpace cs with
  | '\x7d' :: rest =>
    some (.table [], ⟨rest, length_lt_of_skipSpace h⟩)
  | _ => do
    let (bs, rest) ← bindings value cs
    let entries ← bs.foldlM (fun entries b => Entries.assign b.1 b.2 entries) []
    return (Entries.finish entries, rest)

/-- Reads a value inside of which there are at most `levels` levels of nesting. -/
def value : (levels : Nat) → Reader Toml
  | 0, cs => (quoted cs).or (unquoted cs)
  | levels + 1, cs =>
    match cs with
    | '[' :: rest => (elements (value levels) rest).map fun (vs, after) => (.arr vs, after.cons '[')
    | '\x7b' :: rest => (braced (value levels) rest).map fun (v, after) => (v, after.cons '\x7b')
    | cs => (quoted cs).or (unquoted cs)

end HostProfile.Toml
