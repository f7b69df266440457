import HostProfile.Proofs.Chain.Bucket

/-!
# Definitions that a chain has no use for

A definition that was merged does nothing when it is merged again. This stays so while others with
other keys are merged: what the chain recognises it by, or what keeps it out, are entries with its
own key, and these stay.
-/

namespace HostProfile.Chain

variable {T : Type} [Item T] {c : Chain T} {g h : Handle T} {contexts : Option ContextSet}
  {supply : Supply} {change : Change}

/-- Merging the definition changes nothing, whatever cells are left. -/
def Idle (contexts : Option ContextSet) (h : Handle T) (c : Chain T) : Prop :=
  ∀ supply, (merge contexts h c supply).result = .ok .unchanged

/-- An entry in the cell of the definition has its key, as the definition itself has. -/
def Guarded (h : Handle T) (c : Chain T) : Prop :=
  ∀ x ∈ c.items, x.cell = h.cell → c.collides h.item x = true

variable [LawfulItem T]

theorem Guarded.merge (guarded : c.Guarded h) (old : h.cell < supply.next)
    (own : g.cell = h.cell → c.collides h.item g = true) (contexts : Option ContextSet) :
    (merge contexts g c supply).state.Guarded h := by
  intro x held same_cell
  obtain ⟨items, after, old_or_new⟩ := merge_frame contexts g c supply
  rw [after] at held ⊢
  rcases old_or_new x held with before | ⟨priority, -, rfl⟩
  · exact guarded x before same_cell
  · refine ((kind_collides c h.item).atPriority g priority supply).trans (own ?_)
    unfold Handle.atPriority at same_cell
    split at same_cell
    · exact same_cell
    · rw [← same_cell] at old
      exact absurd old (Nat.lt_irrefl supply.next)

theorem idle_merge (ok : (merge contexts h c supply).result = .ok change) :
    (merge contexts h c supply).state.Idle contexts h := merge_merge ok

/-- A definition is idle in a chain when it is so among the entries with its key. -/
theorem idle_part_iff (guarded : c.Guarded h) :
    (c.part c.key (c.collides h.item)).Idle contexts h ↔ c.Idle contexts h := by
  have own : c.collides h.item h = true := KeyScope.collides_refl c.scope h.item
  refine forall_congr' fun supply => ?_
  rw [(merge_part (kind_collides c h.item) own guarded contexts supply).1]
  cases (Chain.merge contexts h c supply).result with
  | error e => exact ⟨nofun, nofun⟩
  | ok change => exact Iff.rfl

/-- What is merged under another key leaves a definition idle. -/
theorem Idle.merge (idle : c.Idle contexts h) (guarded : c.Guarded h)
    (after : (Chain.merge contexts g c supply).state.Guarded h)
    (apart : c.collides h.item g = false) :
    (Chain.merge contexts g c supply).state.Idle contexts h := by
  obtain ⟨items, is, -⟩ := merge_frame contexts g c supply
  have kept : (Chain.merge contexts g c supply).state.part c.key (c.collides h.item) =
      c.part c.key (c.collides h.item) :=
    part_merge_of_outside (kind_collides c h.item) apart contexts supply
  rw [is] at after kept ⊢
  rw [← idle_part_iff guarded, ← kept] at idle
  exact (idle_part_iff after).mp idle

end HostProfile.Chain
