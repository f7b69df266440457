/-!
# Directives

The mark in front of a package decides how the package treats the entries that are already there,
whatever the merge rules say.
-/

namespace HostProfile

/-- What the mark of a package asks for. -/
inductive Directive where
  /-- Take the place of every entry with the same key. -/
  | add
  /-- Take the place of every entry with the same key and let none follow. -/
  | pin
  /-- Drop every entry with the same key. -/
  | remove
  /-- Take the place of every entry with the same key. -/
  | upgrade
  /-- Stay only where no entry has the same key. -/
  | fallback
  deriving DecidableEq, Repr

namespace Directive

/-- The directives, in the order of their table. -/
def all : List Directive := [add, pin, remove, upgrade, fallback]

/-- The name of the directive. -/
def name : Directive → String
  | add => "Add"
  | pin => "Pin"
  | remove => "Remove"
  | upgrade => "Upgrade"
  | fallback => "Fallback"

/-- The mark that stands for the directive. -/
def char : Directive → Char
  | add => '+'
  | pin => '='
  | remove => '-'
  | upgrade => '?'
  | fallback => '~'

/-- The directive that a mark stands for. -/
def ofChar? (c : Char) : Option Directive := all.find? (·.char == c)

/-- The directive that a specification begins with, and the text behind its mark. -/
def strip (spec : String) : Option Directive × String :=
  match spec.toList with
  | [] => (none, spec)
  | c :: rest =>
    match ofChar? c with
    | some d => (some d, String.ofList rest)
    | none => (none, spec)

@[simp] theorem ofChar?_char (d : Directive) : ofChar? d.char = some d := by
  cases d <;> rfl

theorem ofChar?_eq_some_iff {c : Char} {d : Directive} : ofChar? c = some d ↔ c = d.char := by
  constructor
  · intro h
    have found : (d.char == c) = true :=
      List.find?_some (p := fun e : Directive => e.char == c) h
    exact (beq_iff_eq.mp found).symm
  · rintro rfl
    exact ofChar?_char d

end Directive

end HostProfile
