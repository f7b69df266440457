import HostProfile.Proofs.Toml.Quoted

/-!
# Reading text over several lines

At no place of the text do three quotes stand in front: with escapes every third quote in a row is
escaped, and without them there are no three in a row. So the first three quotes that are met end
the text, or up to two of them belong to it and the closing ones follow.
-/

namespace HostProfile.Toml

variable {c quote : Char} {cs w rest : List Char}

/-! ## The closing quotes -/

theorem three_in_front_iff :
    [quote, quote, quote] <+: cs ↔ ∃ rest, cs = quote :: quote :: quote :: rest :=
  exists_congr fun _ => eq_comm

theorem three_in_front_of_closing? {q : Quotation} (h : closing? quote cs = some q) :
    [quote, quote, quote] <+: cs := by
  rw [three_in_front_iff]
  revert h
  fun_cases closing? quote cs <;> simp_all

theorem closing?_of_ne (other : c ≠ quote) (rest : List Char) :
    closing? quote (c :: rest) = none := by
  rw [Option.eq_none_iff_forall_ne_some]
  intro q closes
  obtain ⟨more, quotes⟩ := three_in_front_iff.mp (three_in_front_of_closing? closes)
  exact other (List.cons.inj quotes).1

/-- Text with something else than quotes goes on, as one of its first three characters is no
quote. -/
theorem closing?_eq_none (short : ¬[quote, quote, quote] <+: w) (other : ¬∀ c ∈ w, c = quote)
    (rest : List Char) : closing? quote (w ++ rest) = none := by
  rw [Option.eq_none_iff_forall_ne_some]
  intro q closes
  obtain ⟨more, quotes⟩ := three_in_front_iff.mp (three_in_front_of_closing? closes)
  obtain ⟨c, member, other⟩ : ∃ c ∈ w, c ≠ quote := by simpa using other
  rcases w with _ | ⟨a, _ | ⟨b, _ | ⟨d, w⟩⟩⟩
  · simp at member
  · simp_all
  · simp_all
  · exact short (three_in_front_iff.mpr ⟨w, by simp_all⟩)

theorem closing?_three (quote : Char) (cs : List Char) :
    closing? quote (quote :: quote :: quote :: cs) =
      some ((cs.take 2).takeWhile (· == quote),
        cs.drop ((cs.take 2).takeWhile (· == quote)).length) := by
  simp [closing?]

theorem append_three (same : ∀ c ∈ w, c = quote) (rest : List Char) :
    w ++ quote :: quote :: quote :: rest = quote :: quote :: quote :: (w ++ rest) := by
  induction w with
  | nil => rfl
  | cons c w ih =>
      rw [List.cons_append, ih fun d member => same d (List.mem_cons_of_mem _ member),
        same c List.mem_cons_self]
      rfl

/-- Up to two quotes before the closing ones are text. -/
theorem closing?_quotes (short : ¬[quote, quote, quote] <+: w) (same : ∀ c ∈ w, c = quote)
    (stops : Stops (· == quote) rest) :
    closing? quote (w ++ quote :: quote :: quote :: rest) = some (w, rest) := by
  have repeated : w = List.replicate w.length quote := List.eq_replicate_of_mem same
  have few : w.length ≤ 2 := by
    refine Nat.not_lt.mp fun three => short ?_
    rw [repeated, ← Nat.sub_add_cancel three]
    exact List.prefix_append _ _
  have ends : ∀ n, (rest.take n).takeWhile (· == quote) = [] := by
    intro n
    cases rest with
    | nil => simp
    | cons c rest => cases n <;> simp [stops c rfl]
  have row : ((w ++ rest).take 2).takeWhile (· == quote) = w := by
    rw [List.take_append, List.take_of_length_le few,
      List.takeWhile_append_of_pos (by simpa using same), ends, List.append_nil]
  rw [append_three same, closing?_three, row, List.drop_left]

/-! ## Several lines -/

theorem basicLines?_char (opened : closing? '"' (c :: rest) = none) (text : isText c = true)
    (plain : c ≠ '\\') : basicLines? (c :: rest) = (basicLines? rest).map (.cons c) := by
  rw [basicLines?, opened]
  · simp only [text, if_true]
    split <;> simp_all [lineBreak?_of_isText text]
  · exact plain

theorem basicLines?_break (rest : List Char) :
    basicLines? ('\n' :: rest) = (basicLines? rest).map (.cons '\n') := by
  rw [basicLines?, closing?_of_ne (by decide)]
  · rfl
  · decide

theorem basicLines?_escape {more : List Char} (reads : escape? cs = some (c, more)) :
    basicLines? ('\\' :: cs) = (basicLines? more).map (.cons c) := by
  rw [basicLines?, closing?_of_ne (by decide)]
  simp only [lineBreak?_of_escape? reads]
  split <;> simp_all

theorem basicLines?_closing {q : Quotation} (closes : closing? '"' cs = some q) :
    basicLines? cs = some q := by
  rw [basicLines?.eq_def, closes]

theorem literalLines?_char (opened : closing? '\x27' (c :: rest) = none) (text : isText c = true) :
    literalLines? (c :: rest) = (literalLines? rest).map (.cons c) := by
  rw [literalLines?, opened]
  simp only [text, if_true]
  split <;> simp_all [lineBreak?_of_isText text]

theorem literalLines?_break (rest : List Char) :
    literalLines? ('\n' :: rest) = (literalLines? rest).map (.cons '\n') := by
  rw [literalLines?, closing?_of_ne (by decide)]
  rfl

theorem literalLines?_closing {q : Quotation} (closes : closing? '\x27' cs = some q) :
    literalLines? cs = some q := by
  rw [literalLines?.eq_def, closes]

/-! ## Escapes over several lines -/

/-- How a character is written behind `row` quotes, and how many quotes stand in a row then. -/
inductive Written (row : Nat) : Char → List Char → Nat → Prop where
  | quote (less : row < 2) : Written row '"' ['"'] (row + 1)
  | feed : Written row '\n' ['\n'] 0
  | escape {c : Char} {tail : List Char} (reads : ∀ rest, escape? (tail ++ rest) = some (c, rest)) :
      Written row c ('\\' :: tail) 0
  | plain {c : Char} (plain : isSpecial c = false) : Written row c [c] 0

theorem Written.le_two {row row' : Nat} (written : Written row c w row') : row' ≤ 2 := by
  cases written with
  | quote less => exact less
  | feed | escape | plain => exact Nat.zero_le 2

/-- Every character of text over several lines is written in one of these ways. -/
theorem exists_written {row : Nat} (le : row ≤ 2) (c : Char) :
    ∃ w row', Written row c w row' ∧
      ∀ cs, escapeLines row (c :: cs) = w ++ escapeLines row' cs := by
  by_cases special : isSpecial c = true
  · obtain ⟨tail, backslash, reads⟩ := exists_escaped special
    by_cases quote : c = '"'
    · by_cases third : row = 2
      · refine ⟨_, _, .escape reads, fun cs => ?_⟩
        simp [escapeLines, quote, third, ← backslash]
      · subst quote
        exact ⟨_, _, .quote (by omega), fun cs => by simp [escapeLines, third]⟩
    · by_cases feed : c = '\n'
      · subst feed
        exact ⟨_, _, .feed, fun cs => by simp [escapeLines]⟩
      · have other : (isControl c || c == '\\') = true := by simpa [isSpecial, quote] using special
        exact ⟨_, _, .escape reads, fun cs => by
          rw [← backslash]
          simp [escapeLines, quote, feed, other]⟩
  · have plain : isSpecial c = false := by simpa using special
    refine ⟨_, _, .plain plain, fun cs => ?_⟩
    simp only [isSpecial, Bool.or_eq_false_iff, beq_eq_false_iff_ne] at plain
    simp [escapeLines, plain]

theorem escapeLines_eq_cons {row : Nat} (le : row ≤ 2) (starts : escapeLines row cs = '"' :: w) :
    row < 2 ∧ ∃ more, cs = '"' :: more ∧ w = escapeLines (row + 1) more := by
  cases cs with
  | nil => simp [escapeLines] at starts
  | cons c cs =>
      obtain ⟨_, _, written, eq⟩ := exists_written le c
      rw [eq] at starts
      cases written with
      | quote less => exact ⟨less, cs, rfl, (List.cons.inj starts).2.symm⟩
      | feed => simp at starts
      | escape reads => simp at starts
      | plain plain =>
          obtain ⟨rfl, -⟩ := List.cons.inj starts
          simp [isSpecial] at plain

/-- No three quotes stand in front, as the third would be escaped. -/
theorem not_three_in_front_escapeLines {row : Nat} (le : row ≤ 2) (cs : List Char) :
    ¬['"', '"', '"'] <+: escapeLines row cs := by
  -- `hasRow` would ask for too much: two more quotes may stand behind an escaped one.
  rintro ⟨rest, eq⟩
  obtain ⟨first, cs', -, eq'⟩ := escapeLines_eq_cons le eq.symm
  obtain ⟨second, cs'', -, eq''⟩ := escapeLines_eq_cons first eq'.symm
  obtain ⟨third, -⟩ := escapeLines_eq_cons second eq''.symm
  omega

/-- Where nothing but quotes are written, they are the text. -/
theorem eq_escapeLines_of_quotes {row : Nat} (le : row ≤ 2)
    (same : ∀ c ∈ escapeLines row cs, c = '"') : escapeLines row cs = cs := by
  induction cs generalizing row with
  | nil => rfl
  | cons c cs ih =>
      obtain ⟨w, row', written, eq⟩ := exists_written le c
      rw [eq] at same ⊢
      have more := ih written.le_two fun d member => same d (List.mem_append_right _ member)
      have written_same := fun d member => same d (List.mem_append_left _ member)
      cases written with
      | quote | feed | plain => rw [more]; rfl
      | escape => simp at written_same

/-- Text over several lines is read up to the quotes behind it. -/
theorem basicLines?_escapeLines {row : Nat} (le : row ≤ 2) (stops : Stops (· == '"') rest)
    (cs : List Char) :
    basicLines? (escapeLines row cs ++ '"' :: '"' :: '"' :: rest) = some (cs, rest) := by
  induction cs generalizing row with
  | nil => exact basicLines?_closing (closing?_quotes (w := []) (by simp) (by simp) stops)
  | cons c cs ih =>
      have short := not_three_in_front_escapeLines le (c :: cs)
      by_cases same : ∀ d ∈ escapeLines row (c :: cs), d = '"'
      · have closes := basicLines?_closing (closing?_quotes short same stops)
        rwa [eq_escapeLines_of_quotes le same] at closes ⊢
      · have opened := closing?_eq_none short same ('"' :: '"' :: '"' :: rest)
        obtain ⟨w, row', written, eq⟩ := exists_written le c
        have more := ih written.le_two
        rw [eq, List.append_assoc] at opened ⊢
        cases written with
        | quote =>
            rw [List.singleton_append] at opened ⊢
            rw [basicLines?_char opened (by decide) (by decide), more]
            rfl
        | feed => rw [List.singleton_append, basicLines?_break, more]; rfl
        | escape reads => rw [List.cons_append, basicLines?_escape (reads _), more]; rfl
        | plain plain =>
            rw [List.singleton_append] at opened ⊢
            obtain ⟨no_control, -, no_backslash⟩ := isSpecial_eq_false_iff.mp plain
            rw [basicLines?_char opened (isText_of_not_isControl no_control) no_backslash, more]
            rfl

/-! ## Single quotes over several lines -/

theorem hasRow_of_le {n row : Nat} (le : n ≤ row) (cs : List Char) :
    hasRow quote n row cs = true := by
  cases cs <;> simp [hasRow, le]

theorem hasRow_mono {n row row' : Nat} (le : row' ≤ row) (cs : List Char)
    (long : hasRow quote n row' cs = true) : hasRow quote n row cs = true := by
  induction cs generalizing row row' with
  | nil =>
      simp only [hasRow, decide_eq_true_eq] at long ⊢
      exact Nat.le_trans long le
  | cons c cs ih =>
      simp only [hasRow, Bool.or_eq_true, decide_eq_true_eq] at long ⊢
      refine long.imp (Nat.le_trans · le) (ih ?_)
      split <;> omega

theorem hasRow_cons {n : Nat} (long : hasRow quote n 0 cs = true) (c : Char) :
    hasRow quote n 0 (c :: cs) = true := by
  rw [hasRow, Bool.or_eq_true]
  exact .inr (hasRow_mono (Nat.zero_le _) cs long)

theorem hasRow_of_three_in_front (row : [quote, quote, quote] <+: cs) :
    hasRow quote 3 0 cs = true := by
  obtain ⟨rest, rfl⟩ := three_in_front_iff.mp row
  simp [hasRow, hasRow_of_le]

/-- Text over several lines without three single quotes in a row is read up to the quotes behind
it. -/
theorem literalLines?_append (short : hasRow '\x27' 3 0 cs = false)
    (text : ∀ c ∈ cs, isText c = true ∨ c = '\n') (stops : Stops (· == '\x27') rest) :
    literalLines? (cs ++ '\x27' :: '\x27' :: '\x27' :: rest) = some (cs, rest) := by
  induction cs with
  | nil => exact literalLines?_closing (closing?_quotes (w := []) (by simp) (by simp) stops)
  | cons c cs ih =>
      have no_three : ¬['\x27', '\x27', '\x27'] <+: c :: cs := fun row => by
        simp [hasRow_of_three_in_front row] at short
      by_cases same : ∀ d ∈ c :: cs, d = '\x27'
      · exact literalLines?_closing (closing?_quotes no_three same stops)
      · have opened := closing?_eq_none no_three same ('\x27' :: '\x27' :: '\x27' :: rest)
        have shorter : hasRow '\x27' 3 0 cs = false := by
          rw [← Bool.not_eq_true] at short ⊢
          exact fun long => short (hasRow_cons long c)
        have more := ih shorter fun d member => text d (List.mem_cons_of_mem _ member)
        rw [List.cons_append] at opened ⊢
        obtain is_text | rfl := text c List.mem_cons_self
        · rw [literalLines?_char opened is_text, more]
          rfl
        · rw [literalLines?_break, more]
          rfl

end HostProfile.Toml
