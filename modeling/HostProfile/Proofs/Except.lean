/-!
# Computations that can fail

A computation that succeeded succeeded in each of its steps, and one that failed failed in one of
them.
-/

namespace HostProfile

variable {ε α β σ : Type}

theorem bind_eq_ok {x : Except ε α} {f : α → Except ε β} {b : β} (ok : (x >>= f) = .ok b) :
    ∃ a, x = .ok a ∧ f a = .ok b := by
  cases x with
  | error e => exact absurd ok nofun
  | ok a => exact ⟨a, rfl, ok⟩

theorem bind_eq_error {x : Except ε α} {f : α → Except ε β} {e : ε}
    (failed : (x >>= f) = .error e) : x = .error e ∨ ∃ a, f a = .error e := by
  cases x with
  | error e' => exact .inl (congrArg Except.error (Except.error.inj failed))
  | ok a => exact .inr ⟨a, failed⟩

theorem exists_error_iff {x : Except ε α} : (∃ e, x = .error e) ↔ ¬ ∃ a, x = .ok a := by
  cases x <;> simp

theorem mapM_map_of_inverse {f : α → Option β} {g : β → α} (inverse : ∀ b, f (g b) = some b)
    (bs : List β) : (bs.map g).mapM f = some bs := by
  induction bs with
  | nil => rfl
  | cons b bs ih => simp [List.mapM_cons, inverse, ih]

/-- What each step of a fold keeps, a fold that succeeds keeps. -/
theorem foldlM_keeps {P : σ → Prop} {f : σ → α → Except ε σ} {xs : List α}
    (step : ∀ x ∈ xs, ∀ s s', P s → f s x = .ok s' → P s') :
    ∀ {s s'}, P s → xs.foldlM f s = .ok s' → P s' := by
  induction xs with
  | nil =>
      intro s s' start ok
      exact Except.ok.inj ok ▸ start
  | cons x rest ih =>
      intro s s' start ok
      rw [List.foldlM_cons] at ok
      obtain ⟨next, first, others⟩ := bind_eq_ok ok
      apply ih (fun y member => step y (List.mem_cons_of_mem x member)) _ others
      exact step x List.mem_cons_self s next start first

section Tested

/-! A fold may look at each member apart, whatever came before it, and take only those that pass. -/

variable {f : σ → α → Except ε σ} {good : α → Bool} {err : α → ε} {g : σ → α → σ} {xs : List α}
  {s s' : σ}

theorem foldlM_eq_ok_iff (step : ∀ s x, f s x = if good x then .ok (g s x) else .error (err x)) :
    xs.foldlM f s = .ok s' ↔ (∀ x ∈ xs, good x = true) ∧ xs.foldl g s = s' := by
  induction xs generalizing s with
  | nil => simp [pure, Except.pure]
  | cons x xs ih =>
      rw [List.foldlM_cons, step, List.foldl_cons, List.forall_mem_cons]
      cases good x with
      | true => exact ih.trans (by simp)
      | false => exact ⟨nofun, fun ⟨⟨pass, _⟩, _⟩ => absurd pass Bool.false_ne_true⟩

theorem exists_of_foldlM_eq_error
    (step : ∀ s x, f s x = if good x then .ok (g s x) else .error (err x)) {e : ε}
    (failed : xs.foldlM f s = .error e) : ∃ x ∈ xs, good x = false ∧ err x = e := by
  induction xs generalizing s with
  | nil => exact absurd failed nofun
  | cons x xs ih =>
      rw [List.foldlM_cons, step] at failed
      cases test : good x with
      | true =>
          rw [test] at failed
          obtain ⟨y, member, found⟩ := ih failed
          exact ⟨y, List.mem_cons_of_mem x member, found⟩
      | false =>
          rw [test] at failed
          exact ⟨x, List.mem_cons_self, test, Except.error.inj failed⟩

end Tested

end HostProfile
