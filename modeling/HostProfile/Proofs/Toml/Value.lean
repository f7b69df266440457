import HostProfile.Proofs.Toml.Key
import HostProfile.Proofs.Toml.Scalar
import HostProfile.Toml.Value

/-!
# Reading written values

Text, arrays of texts, booleans and integers are read as what they were written from, up to the end
of their line. An array may be written on one line or on several ones.
-/

namespace HostProfile.Toml

variable {α : Type} {cs rest : List Char}

/-- The reader gives `a` and leaves `rest`. -/
def Reads (read : Reader α) (cs : List Char) (a : α) (rest : List Char) : Prop :=
  ∃ shorter, read cs = some (a, ⟨rest, shorter⟩)

/-! ## Arrays -/

section Elements

variable {v : Reader Toml} {a : Toml} {as : List Toml} {more after : List Char}

theorem reads_elements_nil (refused : v (skipLines cs) = none)
    (closing : skipLines cs = ']' :: rest) : Reads (elements v) cs [] rest := by
  refine ⟨length_lt_of_skipLines closing, ?_⟩
  rw [elements, refused]
  simp only
  split
  · next eq =>
      cases closing.symm.trans eq
      rfl
  · next other => exact absurd closing (other rest)

theorem reads_elements_last (first : Reads v (skipLines cs) a more)
    (closing : skipLines more = ']' :: rest) : Reads (elements v) cs [a] rest := by
  obtain ⟨shorter, eq⟩ := first
  refine ⟨length_lt_of_element shorter closing, ?_⟩
  rw [elements, eq]
  simp only
  split
  · next bracket =>
      cases closing.symm.trans bracket
      rfl
  · next comma => simp [closing] at comma
  · next other _ => exact absurd closing (other rest)

theorem reads_elements_cons (first : Reads v (skipLines cs) a more)
    (comma : skipLines more = ',' :: after) (others : Reads (elements v) after as rest) :
    Reads (elements v) cs (a :: as) rest := by
  obtain ⟨shorter, eq⟩ := first
  obtain ⟨shorter', eq'⟩ := others
  refine ⟨shorter'.trans (length_lt_of_element shorter comma), ?_⟩
  rw [elements, eq]
  simp only
  split
  · next bracket => simp [comma] at bracket
  · next found =>
      cases comma.symm.trans found
      rw [eq']
      rfl
  · next other => exact absurd comma (other after)

end Elements

/-! ## Text and scalars -/

theorem reads_quoted {q : Quotation} (h : text? cs = some q) :
    Reads quoted cs (.str (String.ofList q.1)) q.2 := by
  refine ⟨length_lt_of_text? h, ?_⟩
  unfold quoted
  split
  · next found =>
      cases h.symm.trans found
      rfl
  · next missing => simp [h] at missing

theorem quoted_eq_none (h : text? cs = none) : quoted cs = none := by
  unfold quoted
  split
  · next found => simp [h] at found
  · rfl

theorem reads_unquoted {v : Toml} (h : run? cs = some (v, rest)) : Reads unquoted cs v rest := by
  refine ⟨length_lt_of_run? h, ?_⟩
  unfold unquoted
  split
  · next found =>
      cases h.symm.trans found
      rfl
  · next missing => simp [h] at missing

theorem unquoted_eq_none (h : run? cs = none) : unquoted cs = none := by
  unfold unquoted
  split
  · next found => simp [h] at found
  · rfl

theorem exists_of_text? {q : Quotation} (h : text? cs = some q) :
    ∃ c w, cs = c :: w ∧ isQuote c = true := by
  revert h
  fun_cases text? cs with
  | case1 | case2 | case3 | case4 => exact fun _ => ⟨_, _, rfl, rfl⟩
  | case5 => simp

theorem text?_of_stops (stops : Stops isQuote cs) : text? cs = none := by
  rw [Option.eq_none_iff_forall_ne_some]
  intro q h
  obtain ⟨c, w, rfl, quote⟩ := exists_of_text? h
  simp [stops c rfl] at quote

theorem stops_spellText {p : Char → Bool} (double : p '"' = false) (single : p '\x27' = false)
    (text : String) (stops : Stops isQuote rest) : Stops p ((spellText text).toList ++ rest) := by
  obtain ⟨c, w, eq, quote⟩ := exists_of_text? (text?_spellText text stops)
  rw [eq]
  refine stops_cons ?_ w
  simp only [isQuote, Bool.or_eq_true, beq_iff_eq] at quote
  obtain rfl | rfl := quote
  · exact double
  · exact single

/-! ## Values -/

/-- Begins an array or a table in braces. -/
def isBracket (c : Char) : Bool := c == '[' || c == '\x7b'

theorem value_of_stops (levels : Nat) (stops : Stops isBracket cs) :
    value levels cs = (quoted cs).or (unquoted cs) := by
  fun_cases value levels cs with
  | case1 => rfl
  | case2 | case3 => exact absurd (stops _ rfl) (by decide)
  | case4 levels no_array no_table => rw [value] <;> assumption

theorem reads_array {levels : Nat} {as : List Toml}
    (reads : Reads (elements (value levels)) cs as rest) :
    Reads (value (levels + 1)) ('[' :: cs) (.arr as) rest := by
  obtain ⟨shorter, eq⟩ := reads
  exact ⟨Nat.lt_succ_of_lt shorter, by simp [value, eq, Shorter.cons]⟩

theorem reads_text (levels : Nat) (text : String) (stops : Stops isQuote rest) :
    Reads (value levels) ((spellText text).toList ++ rest) (.str text) rest := by
  have no_bracket : Stops isBracket ((spellText text).toList ++ rest) :=
    stops_spellText (by decide) (by decide) text stops
  obtain ⟨shorter, eq⟩ := reads_quoted (text?_spellText text stops)
  refine ⟨shorter, ?_⟩
  rw [value_of_stops levels no_bracket, eq, String.ofList_toList]
  rfl

theorem stops_scalar {p : Char → Bool} {run : List Char} (some_chars : run ≠ [])
    (scalar : ∀ c ∈ run, isScalarChar c = true)
    (other : ∀ c, p c = true → isScalarChar c = false) (rest : List Char) :
    Stops p (run ++ rest) := by
  obtain ⟨c, run, rfl⟩ := List.exists_cons_of_ne_nil some_chars
  have first := scalar c List.mem_cons_self
  refine stops_cons (Bool.eq_false_iff.mpr fun test => ?_) _
  simp [other c test] at first

theorem isScalarChar_of_isQuote {c : Char} (quote : isQuote c = true) :
    isScalarChar c = false := by
  simp only [isQuote, Bool.or_eq_true, beq_iff_eq] at quote
  obtain rfl | rfl := quote <;> decide

theorem isScalarChar_of_isBracket {c : Char} (bracket : isBracket c = true) :
    isScalarChar c = false := by
  simp only [isBracket, Bool.or_eq_true, beq_iff_eq] at bracket
  obtain rfl | rfl := bracket <;> decide

theorem reads_scalar (levels : Nat) {run : List Char} {v : Toml} (some_chars : run ≠ [])
    (scalar : ∀ c ∈ run, isScalarChar c = true) (denotes : bare? run = some v)
    (stops : Stops isScalarChar rest) (no_space : Stops (· == ' ') rest) :
    Reads (value levels) (run ++ rest) v rest := by
  have no_quote := text?_of_stops
    (stops_scalar some_chars scalar (fun _ => isScalarChar_of_isQuote) rest)
  have no_bracket := stops_scalar some_chars scalar (fun _ => isScalarChar_of_isBracket) rest
  obtain ⟨shorter, eq⟩ := reads_unquoted (run?_append some_chars scalar denotes stops no_space)
  refine ⟨shorter, ?_⟩
  rw [value_of_stops levels no_bracket, quoted_eq_none no_quote, eq]
  rfl

/-- No value begins with a closing bracket. -/
theorem value_closing (levels : Nat) (rest : List Char) : value levels (']' :: rest) = none := by
  have no_quote : text? (']' :: rest) = none := text?_of_stops (stops_cons (by decide) rest)
  have no_run : run? (']' :: rest) = none := run?_of_stops (stops_cons (by decide) rest)
  rw [value_of_stops levels (stops_cons (by decide) rest), quoted_eq_none no_quote,
    unquoted_eq_none no_run]
  rfl

theorem skipLines_spellText (text : String) (stops : Stops isQuote rest) :
    skipLines ((spellText text).toList ++ rest) = (spellText text).toList ++ rest :=
  skipLines_of_stops (stops_spellText (by decide) (by decide) text stops)

/-- The lines of an array. -/
def textLines (texts : List String) : List Char :=
  texts.flatMap fun text => ' ' :: ' ' :: ' ' :: ' ' :: (spellText text).toList ++ [',', '\n']

theorem textLines_cons (text : String) (texts : List String) (rest : List Char) :
    textLines (text :: texts) ++ rest =
      ' ' :: ' ' :: ' ' :: ' ' ::
        ((spellText text).toList ++ ',' :: '\n' :: (textLines texts ++ rest)) := by
  simp [textLines]

/-- Texts on a line each are the elements of an array. -/
theorem reads_textLines (levels : Nat) (texts : List String) (rest : List Char) :
    Reads (elements (value levels)) ('\n' :: (textLines texts ++ ']' :: rest)) (texts.map .str)
      rest := by
  have closing : skipLines (']' :: rest) = ']' :: rest :=
    skipLines_of_stops (stops_cons (by decide) rest)
  induction texts with
  | nil =>
      have gap : skipLines ('\n' :: (textLines [] ++ ']' :: rest)) = ']' :: rest := by
        rw [skipLines_feed]
        exact closing
      exact reads_elements_nil (by rw [gap]; exact value_closing levels rest) gap
  | cons text texts ih =>
      have comma (more : List Char) : Stops isQuote (',' :: more) := stops_cons (by decide) more
      rw [textLines_cons]
      refine reads_elements_cons ?_ (skipLines_of_stops (stops_cons (by decide) _)) ih
      rw [skipLines_feed, skipLines_space, skipLines_space, skipLines_space, skipLines_space,
        skipLines_spellText text (comma _)]
      exact reads_text levels text (comma _)

/-- Written texts are read as the array of them, whatever follows. -/
theorem reads_texts (levels : Nat) (texts : List String) (rest : List Char) :
    Reads (value (levels + 1)) ((spellTexts texts).toList ++ rest) (.arr (texts.map .str))
      rest := by
  have closing : skipLines (']' :: rest) = ']' :: rest :=
    skipLines_of_stops (stops_cons (by decide) rest)
  rcases texts with _ | ⟨text, _ | ⟨second, others⟩⟩
  · have shape : (spellTexts []).toList ++ rest = '[' :: ']' :: rest := by simp [spellTexts]
    rw [shape]
    exact reads_array
      (reads_elements_nil (by rw [closing]; exact value_closing levels rest) closing)
  · have bracket : Stops isQuote (']' :: rest) := stops_cons (by decide) rest
    have shape : (spellTexts [text]).toList ++ rest =
        '[' :: ((spellText text).toList ++ ']' :: rest) := by
      simp [spellTexts]
    rw [shape]
    refine reads_array (reads_elements_last ?_ closing)
    rw [skipLines_spellText text bracket]
    exact reads_text levels text bracket
  · have shape : (spellTexts (text :: second :: others)).toList ++ rest =
        '[' :: '\n' :: (textLines (text :: second :: others) ++ ']' :: rest) := by
      simp [spellTexts, textLines, String.toList_join, List.flatMap_map]
    rw [shape]
    exact reads_array (reads_textLines levels _ rest)

end HostProfile.Toml
