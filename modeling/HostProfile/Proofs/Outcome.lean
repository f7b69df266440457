import HostProfile.Outcome

/-!
# Actions one after another

What every merge of a list keeps, the merges of the whole list keep, whether they fail or not.
-/

namespace HostProfile

variable {σ τ α β : Type}

namespace Outcome

@[simp] theorem result_mapState (f : σ → τ) (o : Outcome σ α) :
    (o.mapState f).result = o.result := rfl

@[simp] theorem state_mapState (f : σ → τ) (o : Outcome σ α) :
    (o.mapState f).state = f o.state := rfl

@[simp] theorem result_map (f : α → β) (o : Outcome σ α) :
    (o.map f).result = o.result.map f := rfl

@[simp] theorem state_map (f : α → β) (o : Outcome σ α) : (o.map f).state = o.state := rfl

theorem result_map_eq_ok {f : α → β} {o : Outcome σ α} {b : β}
    (ok : (o.map f).result = .ok b) : ∃ a, o.result = .ok a ∧ f a = b := by
  rw [result_map] at ok
  cases result : o.result with
  | error e =>
      rw [result] at ok
      exact absurd ok nofun
  | ok a =>
      rw [result] at ok
      exact ⟨a, rfl, Except.ok.inj ok⟩

theorem exists_error {o : Outcome σ α} (fails : ¬ ∃ a, o.result = .ok a) :
    ∃ e, o.result = .error e := by
  cases result : o.result with
  | error e => exact ⟨e, rfl⟩
  | ok a => exact absurd ⟨a, result⟩ fails

theorem andThen_of_ok {o : Outcome σ α} {a : α} (ok : o.result = .ok a) (next : α → Action σ β) :
    o.andThen next = next a o.state o.supply := by
  rw [andThen, ok]

theorem andThen_of_error {o : Outcome σ α} {e : MergeError} (failed : o.result = .error e)
    (next : α → Action σ β) : o.andThen next = ⟨.error e, o.state, o.supply⟩ := by
  rw [andThen, failed]

/-- When two actions succeed together, so does the first, and the second goes on from it. -/
theorem andThen_eq_of_ok {o : Outcome σ α} {next : α → Action σ β} {b : β}
    (ok : (o.andThen next).result = .ok b) :
    ∃ a, o.result = .ok a ∧ o.andThen next = next a o.state o.supply := by
  unfold andThen at ok ⊢
  cases result : o.result with
  | error e =>
      rw [result] at ok
      cases ok
  | ok a => exact ⟨a, rfl, rfl⟩

/-- What holds behind the first action and is kept by the second holds behind both. -/
theorem state_andThen {P : σ → Prop} {o : Outcome σ α} {next : α → Action σ β} (first : P o.state)
    (second : ∀ a, P (next a o.state o.supply).state) : P (o.andThen next).state := by
  unfold andThen
  split
  · exact second _
  · exact first

end Outcome

namespace Action

theorem each_cons (merge : β → Action σ Change) (x : β) (rest : List β) (s : σ)
    (supply : Supply) :
    each merge (x :: rest) s supply = (merge x s supply).andThen fun change s supply =>
      (each merge rest s supply).map change.aggregate := rfl

/-- Merges keep what each of them keeps. -/
theorem each_keeps {P : σ → Prop} {merge : β → Action σ Change} {xs : List β}
    (step : ∀ x ∈ xs, ∀ s supply, P s → P (merge x s supply).state) :
    ∀ s supply, P s → P (each merge xs s supply).state := by
  induction xs with
  | nil =>
      intro s supply h
      exact h
  | cons x rest ih =>
      intro s supply h
      apply Outcome.state_andThen (step x List.mem_cons_self s supply h)
      intro change
      exact ih (fun y member => step y (List.mem_cons_of_mem x member)) _ _
        (step x List.mem_cons_self s supply h)

end Action

end HostProfile
