import HostProfile.Toml.Key

/-!
# Tables in the making

A document gives the contents of a table bit by bit: by headers, which open a table, and by paths,
which also create the tables that they lead through. How a table came about decides what may
still be added to it:

* a table that a header has opened is not opened again, and no path leads into it from outside;
* a table that only headers of inner tables have passed through may still be opened once;
* a table that paths have created is added to by paths only, while headers may pass through it.

A name that has a value is never given another one.
-/

namespace HostProfile.Toml

/-- How a table came about. -/
inductive Origin where
  /-- By a header of its own, or as a value. -/
  | opened
  /-- By the header of a table inside it. -/
  | passed
  /-- By a path that leads through it. -/
  | dotted
  deriving DecidableEq, Repr

/-- What a name of an unfinished table stands for. -/
inductive Node where
  | value (v : Toml)
  | table (origin : Origin) (entries : List (String × Node))
  /-- Tables under one header each, of which the last is unfinished. -/
  | tables (earlier : List (List (String × Node))) (last : List (String × Node))

/-- The names of an unfinished table and what they stand for. -/
abbrev Entries : Type := List (String × Node)

namespace Entries

/-- Changes what a name stands for; a new name comes last. The change may be refused. -/
def alter (name : String) (f : Option Node → Option Node) : Entries → Option Entries
  | [] => (f none).map fun node => [(name, node)]
  | (k, node) :: rest =>
    if k = name then (f (some node)).map fun node => (k, node) :: rest
    else (alter name f rest).map ((k, node) :: ·)

/-- Changes the table that headers lead to, which is created where there is none. -/
def within (f : Entries → Option Entries) : List String → Entries → Option Entries
  | [], entries => f entries
  | name :: rest, entries =>
    entries.alter name fun
      | none => (within f rest []).map (.table .passed)
      | some (.value _) => none
      | some (.table origin inner) => (within f rest inner).map (.table origin)
      | some (.tables earlier last) => (within f rest last).map (.tables earlier)

/-- Opens a table by its header. -/
def openTable (path : Path) : Entries → Option Entries :=
  within (alter path.name fun
    | none => some (.table .opened [])
    | some (.table .passed entries) => some (.table .opened entries)
    | some _ => none) path.tables

/-- Opens one more table under a header that several tables share. -/
def openElement (path : Path) : Entries → Option Entries :=
  within (alter path.name fun
    | none => some (.tables [] [])
    | some (.tables earlier last) => some (.tables (earlier ++ [last]) [])
    | some _ => none) path.tables

/-- Gives a name inside the tables of a path its value. -/
def assignIn (name : String) (v : Toml) : List String → Entries → Option Entries
  | [], entries =>
    entries.alter name fun
      | none => some (.value v)
      | some _ => none
  | outer :: rest, entries =>
    entries.alter outer fun
      | none => (assignIn name v rest []).map (.table .dotted)
      | some (.table .dotted inner) => (assignIn name v rest inner).map (.table .dotted)
      | some (.table .passed inner) =>
        if rest.isEmpty then none else (assignIn name v rest inner).map (.table .passed)
      | some (.tables earlier last) =>
        if rest.isEmpty then none else (assignIn name v rest last).map (.tables earlier)
      | some (.table .opened _) | some (.value _) => none

/-- Gives the name of a path its value. -/
def assign (path : Path) (v : Toml) : Entries → Option Entries :=
  assignIn path.name v path.tables

end Entries

mutual

/-- The finished value. -/
def Node.finish : Node → Toml
  | .value v => v
  | .table _ entries => .table (finishEntries entries)
  | .tables earlier last => .arr (finishTables earlier ++ [.table (finishEntries last)])

/-- The finished values under their names. -/
def finishEntries : List (String × Node) → List (String × Toml)
  | [] => []
  | (name, node) :: rest => (name, node.finish) :: finishEntries rest

/-- Tables with finished values. -/
def finishTables : List (List (String × Node)) → List Toml
  | [] => []
  | entries :: rest => .table (finishEntries entries) :: finishTables rest

end

/-- The finished table. -/
def Entries.finish (entries : Entries) : Toml := .table (finishEntries entries)

end HostProfile.Toml
