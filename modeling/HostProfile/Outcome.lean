import HostProfile.Change
import HostProfile.Derivation
import HostProfile.MergeError

/-!
# Actions on containers

An action changes the state of a container, may take cells for new copies of items, and may fail.
A failing action leaves what it had done by then: the state of its outcome is the state behind it
in either case.
-/

namespace HostProfile

/-- What an action leaves behind: its answer, or why it failed, with the state and the supply of
cells after it. -/
structure Outcome (σ α : Type) where
  result : Except MergeError α
  state : σ
  supply : Supply

/-- Something done to a state of type `σ`, with an answer of type `α`. -/
abbrev Action (σ α : Type) : Type := σ → Supply → Outcome σ α

variable {σ τ α β : Type}

namespace Outcome

/-- The same outcome for a state that is part of a larger one. -/
def mapState (f : σ → τ) (o : Outcome σ α) : Outcome τ α := ⟨o.result, f o.state, o.supply⟩

/-- The outcome with another answer. -/
def map (f : α → β) (o : Outcome σ α) : Outcome σ β := ⟨o.result.map f, o.state, o.supply⟩

/-- What follows an outcome, unless that is a failure. -/
def andThen (o : Outcome σ α) (next : α → Action σ β) : Outcome σ β :=
  match o.result with
  | .ok a => next a o.state o.supply
  | .error e => ⟨.error e, o.state, o.supply⟩

end Outcome

namespace Action

/-- Does nothing but fail. -/
def fail (e : MergeError) : Action σ α := fun s supply => ⟨.error e, s, supply⟩

/-- Merges the elements of a list one after another and stops at the first that fails. The answer
tells whether any merge did something. -/
def each (merge : β → Action σ Change) : List β → Action σ Change
  | [] => fun s supply => ⟨.ok .unchanged, s, supply⟩
  | x :: rest => fun s supply =>
    (merge x s supply).andThen fun change s supply =>
      (each merge rest s supply).map change.aggregate

end Action

end HostProfile
