import HostProfile.Proofs.Context.Grammar

/-!
# Single names and stray characters

A name that a context can have is an expression as it stands: it is scanned as one token, and the
token spells the name. A text that begins with a character that no token begins with is no
expression.
-/

namespace HostProfile.Context

theorem isValidName_iff {name : String} : isValidName name = true ↔
    (∃ c rest, name.toList = c :: rest ∧ isNameStart c = true ∧ ∀ d ∈ rest, isNameChar d = true) ∧
      name ≠ "true" ∧ name ≠ "false" := by
  unfold isValidName
  split
  case h_1 chars =>
    refine ⟨nofun, ?_⟩
    rintro ⟨⟨c, rest, chars', -⟩, -⟩
    rw [chars] at chars'
    cases chars'
  case h_2 c rest chars =>
    simp only [Bool.and_eq_true, List.all_eq_true, bne_iff_ne, and_assoc]
    constructor
    · rintro ⟨start, others, constants⟩
      exact ⟨⟨c, rest, chars, start, others⟩, constants⟩
    · rintro ⟨⟨c', rest', chars', start, others⟩, constants⟩
      obtain ⟨rfl, rfl⟩ := List.cons.inj (chars.symm.trans chars')
      exact ⟨start, others, constants⟩

theorem scanned_of_isValidName {name : String} (valid : isValidName name = true) :
    Scanned name.toList [.name name] [] := by
  obtain ⟨⟨c, rest, chars, start, others⟩, -⟩ := isValidName_iff.mp valid
  have scanned := scanned_name start others
  rwa [← chars, String.ofList_toList] at scanned

namespace Expr

/-- A text that begins with a stray character is refused for it. -/
theorem parse_of_stray {text : String} {c : Char} {rest : List Char}
    (chars : text.toList = c :: rest) (stray : isTokenStart c = false) :
    parse text = .error (.contextSyntax text (.unexpectedChar c 0)) := by
  rw [parse, tokenize, chars, tokens_stray (stray_iff.mpr stray)]
  rfl

/-- A valid name is read as itself. -/
theorem parse_of_isValidName {name : String} (valid : isValidName name = true) :
    parse name = .ok (.name name) := by
  obtain ⟨-, not_true, not_false⟩ := isValidName_iff.mp valid
  apply (parse_eq_ok_iff (scanned_of_isValidName valid) (List.cons_ne_nil _ _)).mpr
  exact .ofConjunction (.ofOperand (.name not_true not_false))

end Expr

end HostProfile.Context

namespace HostProfile

/-- A valid name has the priority of the context that it names. -/
theorem ContextSet.evaluate_of_isValidName (set : ContextSet) {name : String}
    (valid : Context.isValidName name = true) :
    set.evaluate name = .ok ((Context.Expr.name name).evaluate set) := by
  rw [evaluate, Context.Expr.parse_of_isValidName valid]
  rfl

end HostProfile
