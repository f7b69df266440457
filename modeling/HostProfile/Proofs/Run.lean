import Mathlib.Data.List.TakeWhile

/-!
# Maximal runs

A run of elements that pass a test is maximal when the list goes on with one that fails it, or ends.
A maximal run at the front of a list is what `takeWhile` takes, and what it leaves is the rest.
-/

namespace HostProfile

variable {α : Type} {p : α → Bool} {run rest : List α}

/-- The list does not go on with an element that passes the test. -/
def Stops (p : α → Bool) (rest : List α) : Prop := ∀ x ∈ rest.head?, p x = false

theorem stops_nil : Stops p [] := fun _ first => absurd first (Option.some_ne_none _).symm

theorem stops_cons {x : α} (fails : p x = false) (rest : List α) : Stops p (x :: rest) :=
  fun _ first => Option.some.inj first ▸ fails

theorem stops_dropWhile (p : α → Bool) (l : List α) : Stops p (l.dropWhile p) := by
  intro x first
  have head := List.head?_dropWhile_not p l
  rw [Option.mem_def.mp first] at head
  exact head

theorem Stops.mono {q : α → Bool} (stops : Stops q rest) (weaker : ∀ x, p x = true → q x = true) :
    Stops p rest := fun x first => by
  rw [Bool.eq_false_iff]
  exact fun passes => Bool.eq_false_iff.mp (stops x first) (weaker x passes)

theorem stops_append {x : α} (stops : Stops p run) (fails : p x = false) (rest : List α) :
    Stops p (run ++ x :: rest) := by
  cases run with
  | nil => exact stops_cons fails rest
  | cons y run => exact stops_cons (stops y rfl) (run ++ x :: rest)

theorem takeWhile_of_stops (stops : Stops p rest) : rest.takeWhile p = [] := by
  cases rest with
  | nil => rfl
  | cons x rest => rw [List.takeWhile_cons, stops x rfl, if_neg Bool.false_ne_true]

theorem takeWhile_run (all : ∀ x ∈ run, p x = true) (stops : Stops p rest) :
    (run ++ rest).takeWhile p = run := by
  rw [List.takeWhile_append_of_pos all, takeWhile_of_stops stops, List.append_nil]

theorem dropWhile_run (all : ∀ x ∈ run, p x = true) (stops : Stops p rest) :
    (run ++ rest).dropWhile p = rest := by
  have whole := List.takeWhile_append_dropWhile (p := p) (l := run ++ rest)
  rw [takeWhile_run all stops] at whole
  exact List.append_cancel_left whole

end HostProfile
