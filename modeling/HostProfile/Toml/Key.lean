import HostProfile.Toml.Quoted

/-!
# Keys

A key is written bare or as quoted text on one line. Keys joined by dots are a path: the last one
names a value or a table, the others are the tables that lead to it.
-/

namespace HostProfile.Toml

/-- A name and the names of the tables that it lies in, from the outside in. -/
structure Path where
  tables : List String
  name : String
  deriving DecidableEq

namespace Path

/-- The path inside a further table. -/
def inside (p : Path) (table : String) : Path := { p with tables := table :: p.tables }

/-- The number of names. -/
def size (p : Path) : Nat := p.tables.length + 1

end Path

/-- How deep arrays and tables may be nested, and how many names a path may have; both have to
stay below this. -/
def nestingLimit : Nat := 80

/-- The key at the front, and what follows it. -/
def key? : List Char → Option (String × List Char)
  | '"' :: rest => (basic? rest).map fun q => (String.ofList q.1, q.2)
  | '\x27' :: rest => (literal? rest).map fun q => (String.ofList q.1, q.2)
  | cs =>
    if (cs.takeWhile isBare).isEmpty then none
    else some (String.ofList (cs.takeWhile isBare), cs.dropWhile isBare)

theorem length_lt_of_key? {cs rest : List Char} {k : String} (h : key? cs = some (k, rest)) :
    rest.length < cs.length := by
  revert h
  fun_cases key? cs with
  | case1 cs =>
    intro h
    obtain ⟨q, hq, eq⟩ := Option.map_eq_some_iff.mp h
    cases eq
    exact Nat.lt_succ_of_lt (length_lt_of_basic? hq)
  | case2 cs =>
    intro h
    obtain ⟨q, hq, eq⟩ := Option.map_eq_some_iff.mp h
    cases eq
    exact Nat.lt_succ_of_lt (length_lt_of_literal? hq)
  | case3 => simp
  | case4 cs _ _ taken =>
    intro h
    cases h
    have whole : (cs.takeWhile isBare).length + (cs.dropWhile isBare).length = cs.length := by
      rw [← List.length_append, List.takeWhile_append_dropWhile]
    have : 0 < (cs.takeWhile isBare).length := by simpa [List.length_pos_iff] using taken
    omega

/-- The path at the front with the spaces around its parts, and what follows it. -/
def dotted? (cs : List Char) : Option (Path × List Char) :=
  match h : key? (skipSpace cs) with
  | none => none
  | some (key, rest) =>
    match hr : skipSpace rest with
    | '.' :: more =>
      have : more.length < cs.length := by
        have := length_lt_of_key? h
        have := length_skipSpace_le cs
        have le := length_skipSpace_le rest
        rw [hr, List.length_cons] at le
        omega
      (dotted? more).map fun p => (p.1.inside key, p.2)
    | after => some (⟨[], key⟩, after)
termination_by cs.length

theorem length_lt_of_dotted? {cs : List Char} {p : Path × List Char} (h : dotted? cs = some p) :
    p.2.length < cs.length := by
  fun_induction dotted? cs generalizing p with
  | case1 => simp at h
  | case2 cs key rest found more after _ ih =>
    obtain ⟨q, hq, rfl⟩ := Option.map_eq_some_iff.mp h
    have := ih hq
    have := length_lt_of_key? found
    have := length_skipSpace_le cs
    have le := length_skipSpace_le rest
    simp only [after, List.length_cons] at le
    simp only
    omega
  | case3 cs key rest found after =>
    cases h
    have := length_lt_of_key? found
    have := length_skipSpace_le cs
    have := length_skipSpace_le rest
    simp only
    omega

/-- The path at the front, unless it has too many parts, and what follows it. -/
def path? (cs : List Char) : Option (Path × List Char) :=
  (dotted? cs).filter (·.1.size < nestingLimit)

theorem length_lt_of_path? {cs rest : List Char} {p : Path} (h : path? cs = some (p, rest)) :
    rest.length < cs.length :=
  length_lt_of_dotted? (p := (p, rest)) (Option.filter_eq_some_iff.mp h).1

end HostProfile.Toml
