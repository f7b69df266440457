import HostProfile.Proofs.Toml.Spelling
import HostProfile.Toml.Key

/-!
# Reading written keys

A written key is read as the key, in front of anything that no bare key goes on with, and without a
dot behind it as a path of one name.
-/

namespace HostProfile.Toml

variable {c : Char} {rest : List Char}

/-- Begins a written key. -/
def isKeyStart (c : Char) : Bool := isBare c || isQuote c

theorem exists_spellKey (key : String) :
    ∃ c w, (spellKey key).toList = c :: w ∧ isKeyStart c = true := by
  simp only [spellKey]
  split
  · next bare =>
      rw [Bool.and_eq_true, Bool.not_eq_true', List.isEmpty_eq_false_iff] at bare
      obtain ⟨some_chars, all⟩ := bare
      obtain ⟨c, w, eq⟩ := List.exists_cons_of_ne_nil some_chars
      have first : isBare c = true := List.all_eq_true.mp all c (by simp [eq])
      exact ⟨c, w, eq, by rw [isKeyStart, first, Bool.true_or]⟩
  · split
    · exact ⟨'"', _, String.toList_ofList, rfl⟩
    · split
      · exact ⟨'\x27', _, String.toList_ofList, rfl⟩
      · exact ⟨'"', _, String.toList_ofList, rfl⟩

theorem stops_spellKey {p : Char → Bool} (other : ∀ c, isKeyStart c = true → p c = false)
    (key : String) (rest : List Char) : Stops p ((spellKey key).toList ++ rest) := by
  obtain ⟨c, w, eq, start⟩ := exists_spellKey key
  rw [eq]
  exact stops_cons (other c start) _

theorem key?_bare {run : List Char} (some_chars : run ≠ []) (bare : ∀ c ∈ run, isBare c = true)
    (stops : Stops isBare rest) : key? (run ++ rest) = some (String.ofList run, rest) := by
  obtain ⟨c, run, rfl⟩ := List.exists_cons_of_ne_nil some_chars
  have first := bare c List.mem_cons_self
  have no_double : c ≠ '"' := by rintro rfl; exact absurd first (by decide)
  have no_single : c ≠ '\x27' := by rintro rfl; exact absurd first (by decide)
  rw [List.cons_append, key?, ← List.cons_append, takeWhile_run bare stops,
    dropWhile_run bare stops]
  · rfl
  · simpa using no_double
  · simpa using no_single

theorem key?_encloseBasic (cs rest : List Char) :
    key? ((enclose ['"'] (escapeLine cs)).toList ++ rest) = some (String.ofList cs, rest) := by
  rw [enclose_one, key?, basic?_escapeLine]
  rfl

theorem key?_encloseLiteral {cs : List Char} (text : ∀ c ∈ cs, isText c = true ∧ c ≠ '\x27')
    (rest : List Char) :
    key? ((enclose ['\x27'] cs).toList ++ rest) = some (String.ofList cs, rest) := by
  rw [enclose_one, key?, literal?_append text]
  rfl

/-- A written key is read as the key, in front of anything that no bare key goes on with. -/
theorem key?_spellKey (key : String) (stops : Stops isBare rest) :
    key? ((spellKey key).toList ++ rest) = some (key, rest) := by
  simp only [spellKey]
  split
  · next bare =>
      rw [Bool.and_eq_true, Bool.not_eq_true', List.isEmpty_eq_false_iff] at bare
      rw [key?_bare bare.1 (List.all_eq_true.mp bare.2) stops, String.ofList_toList]
  · split
    · rw [key?_encloseBasic, String.ofList_toList]
    · split
      · next literal =>
          have text : ∀ c ∈ key.toList, isText c = true ∧ c ≠ '\x27' := by
            intro c member
            simp only [Bool.and_eq_true, Bool.not_eq_true', List.any_eq_false] at literal
            refine ⟨isText_of_not_needsEscape (by simpa using literal.1 c member), ?_⟩
            rintro rfl
            simp_all
          rw [key?_encloseLiteral text, String.ofList_toList]
      · rw [key?_encloseBasic, String.ofList_toList]

theorem dotted?_of_key {cs : List Char} {key : String} (starts : Stops isSpace cs)
    (found : key? cs = some (key, rest)) (single : Stops (· == '.') (skipSpace rest)) :
    dotted? cs = some (⟨[], key⟩, skipSpace rest) := by
  rw [dotted?]
  split
  · next missing => simp [skipSpace_of_stops starts, found] at missing
  · next first after eq =>
      rw [skipSpace_of_stops starts, found] at eq
      cases eq
      split
      · next dot =>
          have no_dot := single '.' (by rw [dot]; rfl)
          simp at no_dot
      · rfl

theorem isGap_of_isKeyStart (start : isKeyStart c = true) : isGap c = false := by
  rw [Bool.eq_false_iff]
  intro gap
  simp only [isGap, isSpace, isBreak, Bool.or_eq_true, beq_iff_eq] at gap
  obtain ((rfl | rfl) | (rfl | rfl)) | rfl := gap <;> exact absurd start (by decide)

/-- A written key without a dot behind it is a path of one name. -/
theorem path?_spellKey (key : String) (stops : Stops isBare rest)
    (single : Stops (· == '.') (skipSpace rest)) :
    path? ((spellKey key).toList ++ rest) = some (⟨[], key⟩, skipSpace rest) := by
  have starts := stops_spellKey (fun _ => isGap_of_isKeyStart) key rest
  rw [path?, dotted?_of_key (stops_isSpace starts) (key?_spellKey key stops) single]
  rfl

end HostProfile.Toml
