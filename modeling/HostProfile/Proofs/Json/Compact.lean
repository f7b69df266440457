import HostProfile.Proofs.Json.Value

/-!
# Compact texts

A text is taken apart, character by character, into its strings as they are written between their
quotes and what stands outside of them. Of a written value there is no space outside the strings,
and the strings are those of the value, each with its escapes.
-/

namespace HostProfile.Json

mutual

/-- The strings of a value and the names of its members, in the order in which they are written. -/
def strings : Json → List String
  | str s => [s]
  | arr elements => elementStrings elements
  | obj members => memberStrings members
  | _ => []

/-- The strings of the elements of an array. -/
def elementStrings : List Json → List String
  | [] => []
  | e :: rest => e.strings ++ elementStrings rest

/-- The strings of the members of an object. -/
def memberStrings : List (String × Json) → List String
  | [] => []
  | (name, value) :: rest => name :: value.strings ++ memberStrings rest

end

theorem elementStrings_eq (elements : List Json) :
    elementStrings elements = elements.flatMap strings := by
  induction elements with
  | nil => rfl
  | cons e rest ih => rw [elementStrings, ih, List.flatMap_cons]

theorem memberStrings_eq (members : List (String × Json)) :
    memberStrings members = members.flatMap fun m => m.1 :: m.2.strings := by
  induction members with
  | nil => rfl
  | cons m rest ih => rw [memberStrings, ih, List.flatMap_cons]

/-- How far a text has been taken apart. -/
structure Scan where
  /-- The characters outside of strings. -/
  outside : List Char := []
  /-- The strings as they are written between their quotes. -/
  strings : List (List Char) := []
  /-- The string that is not closed yet, and whether its next character is escaped. -/
  current : Option (List Char × Bool) := none

namespace Scan

/-- Takes one more character: a quote opens a string, and closes it unless it is escaped. -/
def step (s : Scan) (c : Char) : Scan :=
  match s.current with
  | none =>
    if c == '"' then { s with current := some ([], false) }
    else { s with outside := s.outside ++ [c] }
  | some (written, true) => { s with current := some (written ++ [c], false) }
  | some (written, false) =>
    if c == '"' then { s with strings := s.strings ++ [written], current := none }
    else { s with current := some (written ++ [c], c == '\\') }

/-- Takes all characters of a text. -/
def ofText (text : String) : Scan := text.toList.foldl step {}

end Scan

/-- The text of the value has no space outside of strings, and its strings are those of the value,
written with escapes. -/
def IsCompact (v : Json) : Prop :=
  ∃ outside, (∀ c ∈ outside, Reader.isSpace c = false) ∧
    Scan.ofText v.render = ⟨outside, v.strings.map (·.toList.flatMap escape), none⟩

/-- The characters add no space outside of strings, and the strings of `texts` with escapes. -/
def Adds (cs : List Char) (texts : List String) : Prop :=
  ∃ outside, (∀ c ∈ outside, Reader.isSpace c = false) ∧ ∀ before strings,
    cs.foldl Scan.step ⟨before, strings, none⟩ =
      ⟨before ++ outside, strings ++ texts.map (·.toList.flatMap escape), none⟩

namespace Adds

variable {cs ds : List Char} {texts others : List String} {c : Char}

theorem append (first : Adds cs texts) (second : Adds ds others) :
    Adds (cs ++ ds) (texts ++ others) := by
  obtain ⟨o, no_space, run⟩ := first
  obtain ⟨o', no_space', run'⟩ := second
  refine ⟨o ++ o', List.forall_mem_append.mpr ⟨no_space, no_space'⟩, fun before strings => ?_⟩
  rw [List.foldl_append, run, run', List.map_append, List.append_assoc, List.append_assoc]

theorem nil : Adds [] [] :=
  ⟨[], List.forall_mem_nil _, fun before strings => by simp⟩

theorem char (no_quote : c ≠ '"') (no_space : Reader.isSpace c = false) : Adds [c] [] :=
  ⟨[c], by simpa using no_space, fun before strings => by simp [Scan.step, no_quote]⟩

theorem chars (plain : ∀ c ∈ cs, c ≠ '"' ∧ Reader.isSpace c = false) : Adds cs [] := by
  induction cs with
  | nil => exact nil
  | cons c cs ih =>
      obtain ⟨no_quote, no_space⟩ := plain c List.mem_cons_self
      exact (char no_quote no_space).append
        (ih fun d member => plain d (List.mem_cons_of_mem _ member))

/-! ## Strings -/

theorem foldl_plain (plain : ∀ c ∈ cs, c ≠ '"' ∧ c ≠ '\\') (outside written : List Char)
    (strings : List (List Char)) :
    cs.foldl Scan.step ⟨outside, strings, some (written, false)⟩ =
      ⟨outside, strings, some (written ++ cs, false)⟩ := by
  induction cs generalizing written with
  | nil => simp
  | cons c cs ih =>
      obtain ⟨no_quote, no_backslash⟩ := plain c List.mem_cons_self
      have first : Scan.step ⟨outside, strings, some (written, false)⟩ c =
          ⟨outside, strings, some (written ++ [c], false)⟩ := by
        simp [Scan.step, no_quote, no_backslash]
      rw [List.foldl_cons, first, ih fun d member => plain d (List.mem_cons_of_mem _ member)]
      simp

theorem foldl_escape (c : Char) (outside written : List Char) (strings : List (List Char)) :
    (escape c).foldl Scan.step ⟨outside, strings, some (written, false)⟩ =
      ⟨outside, strings, some (written ++ escape c, false)⟩ := by
  have backslash (d : Char) : ['\\', d].foldl Scan.step ⟨outside, strings, some (written, false)⟩ =
      ⟨outside, strings, some (written ++ ['\\', d], false)⟩ := by
    simp [Scan.step]
  rw [escape_eq]
  cases letter : letter? c with
  | some d => exact backslash d
  | none =>
      simp only
      split
      · next low =>
          have others : '"' ∉ codeUnit c ∧ '\\' ∉ codeUnit c := char_of_lt c low (by decide)
          have plain : ∀ d ∈ codeUnit c, d ≠ '"' ∧ d ≠ '\\' := fun d member =>
            ⟨ne_of_mem_of_not_mem member others.1, ne_of_mem_of_not_mem member others.2⟩
          have whole : '\\' :: 'u' :: codeUnit c = ['\\', 'u'] ++ codeUnit c := rfl
          rw [whole, List.foldl_append, backslash, foldl_plain plain, List.append_assoc]
      · refine foldl_plain (fun d member => ?_) outside written strings
        rw [List.mem_singleton.mp member]
        constructor
        · rintro rfl
          cases letter
        · rintro rfl
          cases letter

theorem foldl_escaped (cs outside written : List Char) (strings : List (List Char)) :
    (cs.flatMap escape).foldl Scan.step ⟨outside, strings, some (written, false)⟩ =
      ⟨outside, strings, some (written ++ cs.flatMap escape, false)⟩ := by
  induction cs generalizing written with
  | nil => simp
  | cons c cs ih =>
      rw [List.flatMap_cons, List.foldl_append, foldl_escape, ih, List.append_assoc]

theorem quote (s : String) : Adds (quote s).toList [s] := by
  refine ⟨[], List.forall_mem_nil _, fun before strings => ?_⟩
  have opened : Scan.step ⟨before, strings, none⟩ '"' =
      ⟨before, strings, some ([], false)⟩ := rfl
  rw [Reader.toList_quote, List.foldl_cons, opened, List.foldl_append, foldl_escaped]
  simp [Scan.step]

/-! ## Values -/

/-- Texts between commas add what they add one by one. -/
theorem commaSeparated {α : Type} {f : α → String} {strings : α → List String} {as : List α}
    (each : ∀ a ∈ as, Adds (f a).toList (strings a)) :
    Adds (commaSeparated (as.map f)) (as.flatMap strings) := by
  induction as with
  | nil => exact nil
  | cons a others ih =>
      have first := each a List.mem_cons_self
      have rest := ih fun b member => each b (List.mem_cons_of_mem _ member)
      cases others with
      | nil => simpa [commaSeparated_singleton] using first
      | cons b others =>
          rw [List.map_cons, List.map_cons, commaSeparated_cons_cons, List.flatMap_cons]
          exact first.append ((char (by decide) (by decide)).append rest)

theorem int (n : Int) : Adds (toString n).toList [] := by
  refine chars fun c member => ?_
  have scalar := Toml.isScalarChar_toString n c member
  constructor
  · rintro rfl
    exact absurd scalar (by decide)
  · refine Bool.eq_false_iff.mpr fun space => ?_
    simp only [Reader.isSpace, Bool.or_eq_true, beq_iff_eq] at space
    obtain ((rfl | rfl) | rfl) | rfl := space <;> exact absurd scalar (by decide)

theorem member {m : String × Json} (value : Adds m.2.render.toList m.2.strings) :
    Adds (renderMember m).toList (m.1 :: m.2.strings) := by
  have named := (quote m.1).append ((char (c := ':') (by decide) (by decide)).append value)
  simpa [renderMember] using named

theorem bracketed {d : Char} (opening : c ≠ '"' ∧ Reader.isSpace c = false)
    (closing : d ≠ '"' ∧ Reader.isSpace d = false) (inside : Adds cs texts) :
    Adds (c :: (cs ++ [d])) texts := by
  have whole := (char opening.1 opening.2).append (inside.append (char closing.1 closing.2))
  rwa [List.append_nil] at whole

theorem render {v : Json} (exact : v.Exact) : Adds v.render.toList v.strings := by
  induction exact with
  | null => exact chars (by simp [Json.render, Reader.isSpace])
  | bool b => cases b <;> exact chars (by simp [Json.render, Reader.isSpace])
  | int n => exact int n
  | str s => exact quote s
  | arr all ih =>
      rw [toList_render_arr, Json.strings, elementStrings_eq]
      exact bracketed (by decide) (by decide) (commaSeparated ih)
  | obj all ih =>
      rw [toList_render_obj, Json.strings, memberStrings_eq]
      exact bracketed (by decide) (by decide) (commaSeparated fun m listed => member (ih m listed))

end Adds

/-- The text of a value is compact. -/
theorem Exact.isCompact {v : Json} (exact : v.Exact) : v.IsCompact := by
  obtain ⟨outside, no_space, run⟩ := Adds.render exact
  exact ⟨outside, no_space, run [] []⟩

end HostProfile.Json
