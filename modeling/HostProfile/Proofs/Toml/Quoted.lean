import HostProfile.Proofs.Toml.Layout
import HostProfile.Toml.Quoted
import HostProfile.Toml.Spelling

/-!
# Reading text on one line

An escape stands for its character, whatever follows it. Text between double quotes, with escapes,
and text between single quotes, as it stands, are read as the text up to the quote behind them.
-/

namespace HostProfile.Toml

variable {c : Char} {cs rest : List Char}

/-! ## Characters -/

theorem isText_of_not_isControl (plain : isControl c = false) : isText c = true := by
  simp only [isControl, Bool.or_eq_false_iff, decide_eq_false_iff_not, beq_eq_false_iff_ne] at plain
  simp only [isText, Bool.or_eq_true, Bool.and_eq_true, decide_eq_true_eq, bne_iff_ne]
  exact .inr ⟨Nat.not_lt.mp plain.1, plain.2⟩

theorem isText_of_not_needsEscape (plain : needsEscape c = false) : isText c = true := by
  by_cases tab : c = '\t'
  · rw [tab]
    rfl
  · refine isText_of_not_isControl ?_
    simpa [needsEscape, tab] using plain

theorem isBreak_of_isText (text : isText c = true) : isBreak c = false := by
  rw [isBreak, Bool.or_eq_false_iff, beq_eq_false_iff_ne, beq_eq_false_iff_ne]
  constructor <;> rintro rfl <;> simp [isText] at text

theorem lineBreak?_of_isText (text : isText c = true) (rest : List Char) :
    lineBreak? (c :: rest) = none :=
  lineBreak?_of_stops (stops_cons (isBreak_of_isText text) rest)

/-! ## Escapes -/

/-- Has no place between double quotes but in an escape. -/
def isSpecial (c : Char) : Bool := isControl c || c == '"' || c == '\\'

theorem isSpecial_eq_false_iff :
    isSpecial c = false ↔ isControl c = false ∧ c ≠ '"' ∧ c ≠ '\\' := by
  simp [isSpecial, and_assoc]

theorem toNat_lt_of_isSpecial (special : isSpecial c = true) : c.toNat < 0x80 := by
  simp only [isSpecial, isControl, Bool.or_eq_true, decide_eq_true_eq, beq_iff_eq] at special
  obtain ((low | delete) | rfl) | rfl := special
  · omega
  · omega
  · decide
  · decide

theorem escape?_escaped_of_lt : ∀ n < 0x80, isSpecial (Char.ofNat n) = true →
    escaped (Char.ofNat n) = '\\' :: (escaped (Char.ofNat n)).tail ∧
      escape? (escaped (Char.ofNat n)).tail = some (Char.ofNat n, []) := by
  decide

theorem escape?_append {more : List Char} (h : escape? cs = some (c, more)) (rest : List Char) :
    escape? (cs ++ rest) = some (c, more ++ rest) := by
  revert h
  fun_cases escape? cs <;> simp +contextual [escape?]
  all_goals grind

theorem lineBreak?_of_escape? {q : Char × List Char} (h : escape? cs = some q) :
    lineBreak? (skipSpace cs) = none := by
  revert h
  fun_cases escape? cs <;> intro h <;> first | rfl | cases h

theorem exists_escaped (special : isSpecial c = true) :
    ∃ tail, escaped c = '\\' :: tail ∧ ∀ rest, escape? (tail ++ rest) = some (c, rest) := by
  have ascii := escape?_escaped_of_lt c.toNat (toNat_lt_of_isSpecial special)
  rw [Char.ofNat_toNat] at ascii
  obtain ⟨backslash, reads⟩ := ascii special
  exact ⟨_, backslash, escape?_append reads⟩

/-! ## One line -/

theorem basic?_escape {more : List Char} (reads : escape? cs = some (c, more)) :
    basic? ('\\' :: cs) = (basic? more).map (.cons c) := by
  rw [basic?]
  split
  · next found => simp_all
  · next found => simp_all

theorem basic?_char (plain : isSpecial c = false) :
    basic? (c :: rest) = (basic? rest).map (.cons c) := by
  obtain ⟨no_control, no_quote, no_backslash⟩ := isSpecial_eq_false_iff.mp plain
  rw [basic?.eq_4 _ _ no_quote no_backslash, if_pos (isText_of_not_isControl no_control)]

theorem escapeLine_cons (c : Char) (cs : List Char) :
    escapeLine (c :: cs) = (if isSpecial c then escaped c else [c]) ++ escapeLine cs :=
  List.flatMap_cons

/-- Text with escapes is read up to the quote behind it. -/
theorem basic?_escapeLine (cs rest : List Char) :
    basic? (escapeLine cs ++ '"' :: rest) = some (cs, rest) := by
  induction cs with
  | nil => simp [escapeLine, basic?]
  | cons c cs ih =>
      rw [escapeLine_cons, List.append_assoc]
      by_cases special : isSpecial c = true
      · obtain ⟨tail, backslash, reads⟩ := exists_escaped special
        rw [if_pos special, backslash, List.cons_append, basic?_escape (reads _), ih]
        rfl
      · rw [if_neg special, List.singleton_append, basic?_char (by simpa using special), ih]
        rfl

/-- Text without a single quote is read up to the quote behind it. -/
theorem literal?_append (text : ∀ c ∈ cs, isText c = true ∧ c ≠ '\x27') (rest : List Char) :
    literal? (cs ++ '\x27' :: rest) = some (cs, rest) := by
  induction cs with
  | nil => rfl
  | cons c cs ih =>
      obtain ⟨is_text, no_quote⟩ := text c List.mem_cons_self
      rw [List.cons_append, literal?.eq_3 _ _ no_quote, if_pos is_text,
        ih fun d member => text d (List.mem_cons_of_mem _ member)]
      rfl

end HostProfile.Toml
