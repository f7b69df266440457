import HostProfile.Proofs.Toml.Lines

/-!
# Reading written text

Text is read as what it was written from, in whichever of the four forms it was written and in
front of anything but a quote.
-/

namespace HostProfile.Toml

variable {quote : Char} {cs w rest : List Char}

/-! ## Quotes in front -/

/-- A quote of either kind. -/
def isQuote (c : Char) : Bool := c == '"' || c == '\x27'

theorem stops_double (stops : Stops isQuote rest) : Stops (· == '"') rest :=
  stops.mono fun c double => by simp_all [isQuote]

theorem stops_single (stops : Stops isQuote rest) : Stops (· == '\x27') rest :=
  stops.mono fun c single => by simp_all [isQuote]

theorem enclose_one (quote : Char) (cs rest : List Char) :
    (enclose [quote] cs).toList ++ rest = quote :: (cs ++ quote :: rest) := by
  simp [enclose]

theorem enclose_three (quote : Char) (cs rest : List Char) :
    (enclose [quote, quote, quote] cs).toList ++ rest =
      quote :: quote :: quote :: (cs ++ quote :: quote :: quote :: rest) := by
  simp [enclose]

theorem not_two_in_front (first : Stops (· == quote) w) (stops : Stops (· == quote) rest) :
    ¬[quote, quote] <+: w ++ quote :: rest := by
  rintro ⟨more, eq⟩
  cases w with
  | nil =>
      rw [List.nil_append] at eq
      have second := stops quote (by rw [← (List.cons.inj eq).2]; rfl)
      simp at second
  | cons c w =>
      have other := first c rfl
      rw [(List.cons.inj eq).1] at other
      simp at other

theorem stops_escapeLine (cs : List Char) : Stops (· == '"') (escapeLine cs) := by
  cases cs with
  | nil => exact stops_nil
  | cons c cs =>
      rw [escapeLine_cons]
      by_cases special : isSpecial c = true
      · obtain ⟨tail, backslash, -⟩ := exists_escaped special
        rw [if_pos special, backslash]
        exact stops_cons (by decide) _
      · rw [if_neg special]
        have no_quote := (isSpecial_eq_false_iff.mp (by simpa using special)).2.1
        exact stops_cons (by simpa using no_quote) _

/-! ## The four forms -/

theorem text?_basic (one : ¬['"', '"'] <+: cs) : text? ('"' :: cs) = basic? cs := by
  unfold text?
  split <;> simp_all

theorem text?_literal (one : ¬['\x27', '\x27'] <+: cs) : text? ('\x27' :: cs) = literal? cs := by
  unfold text?
  split <;> simp_all

theorem text?_encloseBasic (stops : Stops isQuote rest) (cs : List Char) :
    text? ((enclose ['"'] (escapeLine cs)).toList ++ rest) = some (cs, rest) := by
  rw [enclose_one, text?_basic (not_two_in_front (stops_escapeLine cs) (stops_double stops)),
    basic?_escapeLine]

theorem text?_encloseLiteral (stops : Stops isQuote rest)
    (text : ∀ c ∈ cs, isText c = true ∧ c ≠ '\x27') :
    text? ((enclose ['\x27'] cs).toList ++ rest) = some (cs, rest) := by
  have first : Stops (· == '\x27') cs := fun c head => by
    simpa using (text c (List.mem_of_head? head)).2
  rw [enclose_one, text?_literal (not_two_in_front first (stops_single stops)),
    literal?_append text]

/-- The line break before text over several lines is dropped, and no other is. -/
theorem dropBreak_opening (first : '\n' ∉ cs → Stops isBreak w) :
    dropBreak (opening cs ++ w) = w := by
  unfold opening
  split
  · rfl
  · next no_feed =>
      have stays := lineBreak?_of_stops (first (by simpa using no_feed))
      rw [List.nil_append, dropBreak, stays, Option.getD_none]

theorem stops_escapeLines {row : Nat} (le : row ≤ 2) (no_feed : '\n' ∉ cs) :
    Stops isBreak (escapeLines row cs) := by
  cases cs with
  | nil => exact stops_nil
  | cons c cs =>
      obtain ⟨w, row', written, eq⟩ := exists_written le c
      rw [eq]
      cases written with
      | quote | escape => exact stops_cons (by decide) _
      | feed => simp at no_feed
      | plain plain =>
          have no_control := (isSpecial_eq_false_iff.mp plain).1
          exact stops_cons (isBreak_of_isText (isText_of_not_isControl no_control)) _

theorem text?_encloseBasicLines (stops : Stops isQuote rest) (cs : List Char) :
    text? ((enclose ['"', '"', '"'] (opening cs ++ escapeLines 0 cs)).toList ++ rest) =
      some (cs, rest) := by
  rw [enclose_three, List.append_assoc, text?, dropBreak_opening fun no_feed =>
      stops_append (stops_escapeLines (Nat.zero_le 2) no_feed) (by decide) _,
    basicLines?_escapeLines (Nat.zero_le 2) (stops_double stops)]

theorem text?_encloseLiteralLines (stops : Stops isQuote rest)
    (text : ∀ c ∈ cs, isText c = true ∨ c = '\n') (short : hasRow '\x27' 3 0 cs = false) :
    text? ((enclose ['\x27', '\x27', '\x27'] (opening cs ++ cs)).toList ++ rest) =
      some (cs, rest) := by
  have first : '\n' ∉ cs → Stops isBreak cs := fun no_feed c head => by
    have member := List.mem_of_head? head
    exact isBreak_of_isText ((text c member).resolve_right fun feed => no_feed (feed ▸ member))
  rw [enclose_three, List.append_assoc, text?, dropBreak_opening fun no_feed =>
      stops_append (first no_feed) (by decide) _,
    literalLines?_append short text (stops_single stops)]

/-- Written text is read as the text. -/
theorem text?_spellText (text : String) (stops : Stops isQuote rest) :
    text? ((spellText text).toList ++ rest) = some (text.toList, rest) := by
  have plain_text : (!text.toList.any fun c => needsEscape c && c != '\n') = true →
      ∀ c ∈ text.toList, isText c = true ∨ c = '\n' := by
    intro plain c member
    simp only [Bool.not_eq_true', List.any_eq_false, Bool.and_eq_true, not_and] at plain
    by_cases feed : c = '\n'
    · exact .inr feed
    · exact .inl (isText_of_not_needsEscape (by simpa [feed] using plain c member))
  -- Which form is chosen matters for single quotes only, between which no escape can stand.
  simp only [spellText]
  split
  · exact text?_encloseBasic stops _
  · split
    · next literal =>
        simp only [Bool.and_eq_true] at literal
        obtain ⟨⟨plain, no_quote⟩, no_feed⟩ := literal
        refine text?_encloseLiteral stops fun c member => ⟨?_, ?_⟩
        · exact (plain_text plain c member).resolve_right fun feed => by simp_all
        · rintro rfl
          simp_all
    · split
      · exact text?_encloseBasicLines stops _
      · split
        · next literal =>
          rw [Bool.and_eq_true] at literal
          exact text?_encloseLiteralLines stops (plain_text literal.1) (by simpa using literal.2)
        · split
          · exact text?_encloseBasicLines stops _
          · exact text?_encloseBasic stops _

end HostProfile.Toml
