import HostProfile.Toml.Basic

/-!
# Spaces, line ends and comments of TOML documents
-/

namespace HostProfile.Toml

/-- The characters from the first on that is no space. -/
def skipSpace (cs : List Char) : List Char := cs.dropWhile isSpace

/-- The characters behind a line break, which is a line feed or a carriage return and a line
feed. -/
def lineBreak? : List Char → Option (List Char)
  | '\n' :: rest => some rest
  | '\r' :: '\n' :: rest => some rest
  | _ => none

/-- The characters behind a comment, if there is one; a comment goes up to the first character
that may not stand in it. -/
def skipComment : List Char → List Char
  | '#' :: rest => rest.dropWhile isText
  | cs => cs

/-- The characters behind the end of a line, which may hold spaces and a comment. The end of the
document ends a line, too. -/
def lineEnd? (cs : List Char) : Option (List Char) :=
  match skipComment (skipSpace cs) with
  | [] => some []
  | rest => lineBreak? rest

theorem length_skipSpace_le (cs : List Char) : (skipSpace cs).length ≤ cs.length :=
  (List.dropWhile_sublist isSpace).length_le

theorem length_lt_of_lineBreak? {cs rest : List Char} (h : lineBreak? cs = some rest) :
    rest.length < cs.length := by
  revert h
  fun_cases lineBreak? cs <;> grind

theorem length_lt_of_skipSpace {c : Char} {cs rest : List Char} (h : skipSpace cs = c :: rest) :
    rest.length < cs.length := by
  have le := length_skipSpace_le cs
  rw [h] at le
  exact le

theorem length_skipComment_le (cs : List Char) : (skipComment cs).length ≤ cs.length := by
  unfold skipComment
  split
  · exact Nat.le_succ_of_le (List.dropWhile_sublist isText).length_le
  · exact Nat.le_refl _

theorem length_le_of_lineEnd? {cs rest : List Char} (h : lineEnd? cs = some rest) :
    rest.length ≤ cs.length := by
  have skipped := Nat.le_trans (length_skipComment_le (skipSpace cs)) (length_skipSpace_le cs)
  unfold lineEnd? at h
  split at h
  · simp_all
  · exact Nat.le_trans (Nat.le_of_lt (length_lt_of_lineBreak? h)) skipped

/-- The characters from the first on that belongs neither to a space nor to a line break nor to a
comment. -/
def skipLines (cs : List Char) : List Char :=
  match h : lineBreak? (skipComment (skipSpace cs)) with
  | some rest =>
    have := length_lt_of_lineBreak? h
    have := length_skipComment_le (skipSpace cs)
    have := length_skipSpace_le cs
    skipLines rest
  | none => skipSpace cs
termination_by cs.length

theorem length_skipLines_le (cs : List Char) : (skipLines cs).length ≤ cs.length := by
  fun_induction skipLines cs with
  | case1 cs rest h _ _ _ ih => omega
  | case2 cs h => exact length_skipSpace_le cs

theorem length_lt_of_skipLines {c : Char} {cs rest : List Char} (h : skipLines cs = c :: rest) :
    rest.length < cs.length := by
  have le := length_skipLines_le cs
  rw [h] at le
  exact le

/-- The characters from the first on that belongs neither to a space nor to a line break. -/
def skipBreaks (cs : List Char) : List Char :=
  match h : lineBreak? (skipSpace cs) with
  | some rest =>
    have := length_lt_of_lineBreak? h
    have := length_skipSpace_le cs
    skipBreaks rest
  | none => skipSpace cs
termination_by cs.length

theorem length_skipBreaks_le (cs : List Char) : (skipBreaks cs).length ≤ cs.length := by
  fun_induction skipBreaks cs with
  | case1 cs rest h _ _ ih => omega
  | case2 cs h => exact length_skipSpace_le cs

end HostProfile.Toml
