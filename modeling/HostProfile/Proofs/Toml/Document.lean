import HostProfile.Proofs.Toml.Draft
import HostProfile.Proofs.Toml.Value
import Mathlib.Data.List.Forall2

/-!
# Reading written tables

A document of written tables, with an empty line between them, is read as these tables in their
order, provided that neither the names of the tables nor the names within one of them repeat.
-/

namespace HostProfile.Toml

variable {rest : List Char}

/-! ## Values on a line -/

/-- A written value is read as `v` up to the end of its line. -/
structure Denotes (written : String) (v : Toml) : Prop where
  starts : ∀ rest, Stops isSpace (written.toList ++ '\n' :: rest)
  reads : ∀ rest,
    Reads (value (nestingLimit - 1)) (written.toList ++ '\n' :: rest) v ('\n' :: rest)

theorem denotes_text (text : String) : Denotes (spellText text) (.str text) where
  starts rest := stops_spellText (by decide) (by decide) text (stops_cons (by decide) rest)
  reads rest := reads_text _ text (stops_cons (by decide) rest)

theorem denotes_texts (texts : List String) :
    Denotes (spellTexts texts) (.arr (texts.map .str)) where
  starts rest := by
    obtain ⟨w, eq⟩ : ∃ w, (spellTexts texts).toList = '[' :: w := by
      rcases texts with _ | ⟨text, _ | ⟨second, others⟩⟩ <;> simp [spellTexts]
    rw [eq]
    exact stops_cons (by decide) _
  -- The elements lie one level below the array.
  reads rest := reads_texts (nestingLimit - 2) texts ('\n' :: rest)

theorem denotes_scalar {written : String} {v : Toml} (some_chars : written.toList ≠ [])
    (scalar : ∀ c ∈ written.toList, isScalarChar c = true)
    (value : bare? written.toList = some v) : Denotes written v where
  starts rest := by
    refine stops_scalar some_chars scalar (fun c space => ?_) _
    simp only [isSpace, Bool.or_eq_true, beq_iff_eq] at space
    obtain rfl | rfl := space <;> decide
  reads rest :=
    reads_scalar _ some_chars scalar value (stops_cons (by decide) rest)
      (stops_cons (by decide) rest)

theorem denotes_bool (b : Bool) : Denotes (toString b) (.bool b) := by
  cases b
  · exact denotes_scalar (by decide) (List.all_eq_true.mp rfl) rfl
  · exact denotes_scalar (by decide) (List.all_eq_true.mp rfl) rfl

theorem denotes_int {n : Int} (range : inRange n = true) : Denotes (toString n) (.int n) :=
  denotes_scalar (toString_ne_nil n) (isScalarChar_toString n) (bare?_toString range)

/-! ## Lines -/

theorem reads_header (name : String) (rest : List Char) :
    Reads (header [']']) ((spellKey name).toList ++ ']' :: rest) ⟨[], name⟩ rest := by
  have gap : skipSpace (']' :: rest) = ']' :: rest :=
    skipSpace_of_stops (stops_cons (by decide) rest)
  have path : path? ((spellKey name).toList ++ ']' :: rest) = some (⟨[], name⟩, ']' :: rest) := by
    rw [path?_spellKey name (stops_cons (by decide) rest), gap]
    rw [gap]
    exact stops_cons (by decide) rest
  refine ⟨by simp; omega, ?_⟩
  unfold header
  split
  · next found =>
      cases path.symm.trans found
      simp
  · next missing => simp [path] at missing

theorem reads_statement_of_header {cs : List Char} {path : Path} (single : Stops (· == '[') cs)
    (reads : Reads (header [']']) cs path rest) :
    Reads statement ('[' :: cs) (.openTable path) rest := by
  obtain ⟨shorter, eq⟩ := reads
  refine ⟨Nat.lt_succ_of_lt shorter, ?_⟩
  cases cs with
  | nil => simp [statement, eq, Shorter.cons]
  | cons c cs =>
      have other : c ≠ '[' := by simpa using single c rfl
      simp [statement, eq, Shorter.cons, other]

theorem reads_statement_of_binding {cs : List Char} {path : Path} {v : Toml}
    (start : Stops (· == '[') cs)
    (reads : Reads (binding (value (nestingLimit - 1))) cs (path, v) rest) :
    Reads statement cs (.assign path v) rest := by
  obtain ⟨shorter, eq⟩ := reads
  refine ⟨shorter, ?_⟩
  unfold statement
  split
  · exact absurd (start '[' rfl) (by decide)
  · exact absurd (start '[' rfl) (by decide)
  · rw [eq]
    rfl

/-- A name, an equals sign and a value. -/
theorem reads_binding {read : Reader Toml} {cs : List Char} {v : Toml}
    (reads : Reads read (skipSpace cs) v rest) (name : String) :
    Reads (binding read) ((spellKey name).toList ++ ' ' :: '=' :: cs) (⟨[], name⟩, v) rest := by
  obtain ⟨shorter, eq⟩ := reads
  have path : path? ((spellKey name).toList ++ ' ' :: '=' :: cs) = some (⟨[], name⟩, '=' :: cs) :=
    path?_spellKey name (stops_cons (by decide) _) (stops_cons (by decide) _)
  refine ⟨length_lt_of_value path shorter, ?_⟩
  unfold binding
  split
  · next found =>
      cases path.symm.trans found
      rw [eq]
      rfl
  · next other => exact absurd path (other _ _)

theorem statements?_nil : statements? [] = some [] := by
  have content : (skipComment (skipLines [])).isEmpty = true := by
    rw [skipLines_of_stops stops_nil]
    rfl
  rw [statements?, if_pos content]

theorem statements?_feed (cs : List Char) : statements? ('\n' :: cs) = statements? cs := by
  rw [statements?.eq_def, statements?.eq_def cs]
  -- Takes out the bounds for termination, which hang on the characters that are rewritten.
  simp only [skipLines_feed]
  rw [skipLines_feed]

/-- A line with content, and the lines behind it. -/
theorem statements?_cons {cs next : List Char} {s : Statement} {ss : List Statement}
    (stops : Stops isGap cs) (some_chars : cs ≠ []) (first : Reads statement cs s ('\n' :: next))
    (others : statements? next = some ss) : statements? cs = some (s :: ss) := by
  have gap := skipLines_of_stops stops
  have comment := skipComment_of_stops stops
  have content : (skipComment (skipLines cs)).isEmpty = false := by
    rw [gap, comment]
    simpa using some_chars
  have line : Reads statement (skipLines cs) s ('\n' :: next) := by rwa [gap]
  obtain ⟨shorter, eq⟩ := line
  rw [statements?, content, eq]
  change (statements? next).bind (fun ss => some (s :: ss)) = some (s :: ss)
  rw [others]
  rfl

/-! ## Tables -/

theorem ne_bracket_of_isKeyStart {c : Char} (start : isKeyStart c = true) : (c == '[') = false := by
  rw [beq_eq_false_iff_ne]
  rintro rfl
  exact absurd start (by decide)

theorem statements?_openTable {ss : List Statement} (others : statements? rest = some ss)
    (name : String) :
    statements? ('[' :: ((spellKey name).toList ++ ']' :: '\n' :: rest)) =
      some (.openTable ⟨[], name⟩ :: ss) := by
  have single := stops_spellKey (fun _ => ne_bracket_of_isKeyStart) name (']' :: '\n' :: rest)
  exact statements?_cons (stops_cons (by decide) _) (List.cons_ne_nil _ _)
    (reads_statement_of_header single (reads_header name ('\n' :: rest))) others

theorem statements?_assign {written : String} {v : Toml} {ss : List Statement}
    (denotes : Denotes written v) (others : statements? rest = some ss) (name : String) :
    statements? ((spellKey name).toList ++
        ' ' :: '=' :: ' ' :: (written.toList ++ '\n' :: rest)) =
      some (.assign ⟨[], name⟩ v :: ss) := by
  have value : Reads (value (nestingLimit - 1))
      (skipSpace (' ' :: (written.toList ++ '\n' :: rest))) v ('\n' :: rest) := by
    have gap : skipSpace (' ' :: (written.toList ++ '\n' :: rest)) =
        written.toList ++ '\n' :: rest := skipSpace_of_stops (denotes.starts rest)
    rw [gap]
    exact denotes.reads rest
  have some_chars : (spellKey name).toList ++
      ' ' :: '=' :: ' ' :: (written.toList ++ '\n' :: rest) ≠ [] := by simp
  exact statements?_cons (stops_spellKey (fun _ => isGap_of_isKeyStart) name _) some_chars
    (reads_statement_of_binding (stops_spellKey (fun _ => ne_bracket_of_isKeyStart) name _)
      (reads_binding value name)) others

/-- A table as written, and the table with its values. -/
structure Describes (written : String × List (String × String))
    (t : String × List (String × Toml)) : Prop where
  name : written.1 = t.1
  entries : List.Forall₂ (fun w e => w.1 = e.1 ∧ Denotes w.2 e.2) written.2 t.2

theorem statements?_entries {written : List (String × String)} {entries : List (String × Toml)}
    (describes : List.Forall₂ (fun w e => w.1 = e.1 ∧ Denotes w.2 e.2) written entries)
    {ss : List Statement} (others : statements? rest = some ss) :
    statements? ((String.join (written.map fun w => spellKey w.1 ++ " = " ++ w.2 ++ "\n")).toList ++
        rest) = some (entries.map (fun e => .assign ⟨[], e.1⟩ e.2) ++ ss) := by
  induction describes with
  | nil => simpa using others
  | cons first _ ih =>
      obtain ⟨same, denotes⟩ := first
      have line := statements?_assign denotes ih
      simpa [same] using line _

theorem statements?_table {written : String × List (String × String)}
    {t : String × List (String × Toml)} (describes : Describes written t) {ss : List Statement}
    (others : statements? rest = some ss) :
    statements? ((spellTable written.1 written.2).toList ++ rest) = some (tableLines t ++ ss) := by
  have lines := statements?_openTable (statements?_entries describes.entries others) written.1
  simpa [spellTable, tableLines, describes.name] using lines

theorem statements?_tables {written : List (String × List (String × String))}
    {tables : List (String × List (String × Toml))}
    (describes : List.Forall₂ Describes written tables) :
    statements? ("\n".intercalate (written.map fun w => spellTable w.1 w.2)).toList =
      some (tables.flatMap tableLines) := by
  induction describes with
  | nil => exact statements?_nil
  | cons first others ih =>
      cases others with
      | nil =>
          have table := statements?_table first statements?_nil
          simpa using table
      | cons second others =>
          have table := statements?_table first ((statements?_feed _).trans ih)
          simpa [String.intercalate_cons_cons] using table

theorem dropByteOrderMark_tables (written : List (String × List (String × String))) :
    dropByteOrderMark ("\n".intercalate (written.map fun w => spellTable w.1 w.2)).toList =
      ("\n".intercalate (written.map fun w => spellTable w.1 w.2)).toList := by
  rcases written with _ | ⟨w, others⟩
  · rfl
  · obtain ⟨cs, eq⟩ : ∃ cs, ("\n".intercalate
        ((w :: others).map fun w => spellTable w.1 w.2)).toList = '[' :: cs := by
      cases others <;> simp [spellTable, String.intercalate_cons_cons]
    rw [eq]
    rfl

/-- A document of written tables is read as these tables. -/
theorem parse?_tables {written : List (String × List (String × String))}
    {tables : List (String × List (String × Toml))}
    (describes : List.Forall₂ Describes written tables) (names : (tables.map Prod.fst).Nodup)
    (nodup : ∀ t ∈ tables, (t.2.map Prod.fst).Nodup) :
    parse? ("\n".intercalate (written.map fun w => spellTable w.1 w.2)) =
      some (.table (tables.map fun t => (t.1, .table t.2))) := by
  obtain ⟨current, built⟩ := foldlM_tables [] tables names nodup []
  have start : ({} : Draft) = ⟨opened [], []⟩ := rfl
  rw [parse?, dropByteOrderMark_tables, statements?_tables describes, start]
  simp only [Option.bind_eq_bind, Option.bind_some, built, List.nil_append,
    Entries.finish_opened]
  rfl

end HostProfile.Toml
