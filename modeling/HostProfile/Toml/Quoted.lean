import HostProfile.Text.Hex
import HostProfile.Toml.Layout

/-!
# Quoted text in TOML

Text is written in one of four forms: between double quotes with escapes, between single quotes as
it stands, and both over several lines between three quotes. In the forms over several lines up to
two quotes may stand before the closing three, a line break after the opening three does not
count, and a carriage return before a line feed is dropped.
-/

namespace HostProfile.Toml

/-- The character with the number that the digits give. -/
def scalar? (digits : List Char) : Option Char := do
  let n ← Text.ofHex? digits
  if n < 0xD800 || (0xDFFF < n && n < 0x110000) then some (Char.ofNat n) else none

/-- The character that an escape stands for and what follows it; `cs` begins behind the
backslash. -/
def escape? : List Char → Option (Char × List Char)
  | 'b' :: rest => some (Char.ofNat 0x08, rest)
  | 't' :: rest => some ('\t', rest)
  | 'n' :: rest => some ('\n', rest)
  | 'f' :: rest => some (Char.ofNat 0x0C, rest)
  | 'r' :: rest => some ('\r', rest)
  | '"' :: rest => some ('"', rest)
  | '\\' :: rest => some ('\\', rest)
  | 'u' :: a :: b :: c :: d :: rest => (scalar? [a, b, c, d]).map (·, rest)
  | 'U' :: a :: b :: c :: d :: e :: f :: g :: h :: rest =>
    (scalar? [a, b, c, d, e, f, g, h]).map (·, rest)
  | _ => none

theorem length_lt_of_escape? {cs rest : List Char} {c : Char} (h : escape? cs = some (c, rest)) :
    rest.length < cs.length := by
  revert h
  fun_cases escape? cs <;>
    simp +contextual only [Option.some.injEq, Prod.mk.injEq, Option.map_eq_some_iff,
      List.length_cons, reduceCtorEq, false_implies, and_imp, forall_exists_index] <;>
    intros <;> subst_vars <;> omega

/-- Text, and what follows its closing quote. -/
abbrev Quotation : Type := List Char × List Char

/-- A character in front of a text. -/
def Quotation.cons (c : Char) (q : Quotation) : Quotation := (c :: q.1, q.2)

/-- Text up to a double quote. -/
def basic? (cs : List Char) : Option Quotation :=
  match cs with
  | [] => none
  | '"' :: rest => some ([], rest)
  | '\\' :: rest =>
    match h : escape? rest with
    | some (c, more) =>
      have := length_lt_of_escape? h
      (basic? more).map (.cons c)
    | none => none
  | c :: rest => if isText c then (basic? rest).map (.cons c) else none
termination_by cs.length

/-- Text up to a single quote. -/
def literal? : List Char → Option Quotation
  | [] => none
  | '\x27' :: rest => some ([], rest)
  | c :: rest => if isText c then (literal? rest).map (.cons c) else none

/-- The quotes of the text that stand before the closing three, where these begin or end the
characters at hand. -/
def closing? (quote : Char) : List Char → Option Quotation
  | a :: b :: c :: rest =>
    if a == quote && b == quote && c == quote then
      let more := (rest.take 2).takeWhile (· == quote)
      some (more, rest.drop more.length)
    else none
  | _ => none

/-- Text over several lines up to three double quotes. A backslash at the end of a line drops all
space up to the next text. -/
def basicLines? (cs : List Char) : Option Quotation :=
  match closing? '"' cs with
  | some done => some done
  | none =>
    match cs with
    | [] => none
    | '\\' :: rest =>
      match lineBreak? (skipSpace rest) with
      | some _ =>
        have := length_skipBreaks_le rest
        basicLines? (skipBreaks rest)
      | none =>
        match h : escape? rest with
        | some (c, more) =>
          have := length_lt_of_escape? h
          (basicLines? more).map (.cons c)
        | none => none
    | c :: rest =>
      match h : lineBreak? (c :: rest) with
      | some more =>
        have : more.length < rest.length + 1 := length_lt_of_lineBreak? h
        (basicLines? more).map (.cons '\n')
      | none => if isText c then (basicLines? rest).map (.cons c) else none
termination_by cs.length

/-- Text over several lines up to three single quotes. -/
def literalLines? (cs : List Char) : Option Quotation :=
  match closing? '\x27' cs with
  | some done => some done
  | none =>
    match cs with
    | [] => none
    | c :: rest =>
      match h : lineBreak? (c :: rest) with
      | some more =>
        have : more.length < rest.length + 1 := length_lt_of_lineBreak? h
        (literalLines? more).map (.cons '\n')
      | none => if isText c then (literalLines? rest).map (.cons c) else none
termination_by cs.length

/-- The characters without a line break at the front. -/
def dropBreak (cs : List Char) : List Char := (lineBreak? cs).getD cs

/-- Text in one of the four forms. -/
def text? : List Char → Option Quotation
  | '"' :: '"' :: '"' :: rest => basicLines? (dropBreak rest)
  | '"' :: rest => basic? rest
  | '\x27' :: '\x27' :: '\x27' :: rest => literalLines? (dropBreak rest)
  | '\x27' :: rest => literal? rest
  | _ => none

theorem length_lt_of_basic? {cs : List Char} {q : Quotation} (h : basic? cs = some q) :
    q.2.length < cs.length := by
  fun_induction basic? cs generalizing q with
  | case1 => simp at h
  | case2 rest => cases h; simp
  | case3 rest c more escaped short ih =>
    obtain ⟨r, hr, rfl⟩ := Option.map_eq_some_iff.mp h
    have := ih hr
    simp only [Quotation.cons, List.length_cons]
    omega
  | case4 => simp at h
  | case5 c rest _ _ _ ih =>
    obtain ⟨r, hr, rfl⟩ := Option.map_eq_some_iff.mp h
    have := ih hr
    simp only [Quotation.cons, List.length_cons]
    omega
  | case6 => simp at h

theorem length_lt_of_literal? {cs : List Char} {q : Quotation} (h : literal? cs = some q) :
    q.2.length < cs.length := by
  fun_induction literal? cs generalizing q with
  | case1 => simp at h
  | case2 rest => cases h; simp
  | case3 c rest _ _ ih =>
    obtain ⟨r, hr, rfl⟩ := Option.map_eq_some_iff.mp h
    have := ih hr
    simp only [Quotation.cons, List.length_cons]
    omega
  | case4 => simp at h

theorem length_lt_of_closing? {quote : Char} {cs : List Char} {q : Quotation}
    (h : closing? quote cs = some q) : q.2.length < cs.length := by
  unfold closing? at h
  split at h
  · split at h
    · simp only [Option.some.injEq] at h
      simp only [← h, List.length_drop, List.length_cons]
      omega
    · simp at h
  · simp at h

theorem length_lt_of_basicLines? {cs : List Char} {q : Quotation}
    (h : basicLines? cs = some q) : q.2.length < cs.length := by
  fun_induction basicLines? cs generalizing q with
  | case1 cs done closes => cases h; exact length_lt_of_closing? closes
  | case2 => simp at h
  | case3 rest _ more _ short ih =>
    have := ih h
    simp only [List.length_cons]
    omega
  | case4 rest _ _ c more escaped short ih =>
    obtain ⟨r, hr, rfl⟩ := Option.map_eq_some_iff.mp h
    have := ih hr
    simp only [Quotation.cons, List.length_cons]
    omega
  | case5 => simp at h
  | case6 c rest _ _ more broken short ih =>
    obtain ⟨r, hr, rfl⟩ := Option.map_eq_some_iff.mp h
    have := ih hr
    simp only [Quotation.cons, List.length_cons] at *
    omega
  | case7 c rest _ _ _ _ ih =>
    obtain ⟨r, hr, rfl⟩ := Option.map_eq_some_iff.mp h
    have := ih hr
    simp only [Quotation.cons, List.length_cons]
    omega
  | case8 => simp at h

theorem length_lt_of_literalLines? {cs : List Char} {q : Quotation}
    (h : literalLines? cs = some q) : q.2.length < cs.length := by
  fun_induction literalLines? cs generalizing q with
  | case1 cs done closes => cases h; exact length_lt_of_closing? closes
  | case2 => simp at h
  | case3 c rest _ more broken short ih =>
    obtain ⟨r, hr, rfl⟩ := Option.map_eq_some_iff.mp h
    have := ih hr
    simp only [Quotation.cons, List.length_cons] at *
    omega
  | case4 c rest _ _ _ ih =>
    obtain ⟨r, hr, rfl⟩ := Option.map_eq_some_iff.mp h
    have := ih hr
    simp only [Quotation.cons, List.length_cons]
    omega
  | case5 => simp at h

theorem length_dropBreak_le (cs : List Char) : (dropBreak cs).length ≤ cs.length := by
  unfold dropBreak
  cases h : lineBreak? cs with
  | none => exact Nat.le_refl _
  | some rest => exact Nat.le_of_lt (length_lt_of_lineBreak? h)

theorem length_lt_of_text? {cs : List Char} {q : Quotation} (h : text? cs = some q) :
    q.2.length < cs.length := by
  revert h
  fun_cases text? cs <;> intro h
  · have := length_lt_of_basicLines? h
    have := length_dropBreak_le ‹_›
    simp only [List.length_cons]
    omega
  · have := length_lt_of_basic? h
    simp only [List.length_cons]
    omega
  · have := length_lt_of_literalLines? h
    have := length_dropBreak_le ‹_›
    simp only [List.length_cons]
    omega
  · have := length_lt_of_literal? h
    simp only [List.length_cons]
    omega
  · simp at h

end HostProfile.Toml
