import HostProfile.Proofs.Chain.Decide
import HostProfile.Proofs.KeyedTable.Operations
import HostProfile.Proofs.Outcome

/-!
# Merges into a chain

A chain merges the definition at the priority that it has in the contexts. `merge_eq` puts the
merge in terms of that priority and of `decide`, and what merging keeps and does is told from
there.
-/

namespace HostProfile.Chain

variable {T : Type} [Item T] {c : Chain T} {h : Handle T} {contexts : Option ContextSet}
  {supply : Supply} {change : Change}

/-- The identity of the definition is checked first, then that of the copy of it where one had to
be made. -/
theorem merge_eq (contexts : Option ContextSet) (h : Handle T) (c : Chain T) (supply : Supply) :
    merge contexts h c supply =
      if c.contains h then ⟨.ok .unchanged, c, supply⟩
      else
        match priorityIn contexts h.item with
        | .error e => ⟨.error (.item e), c, supply⟩
        | .ok priority =>
          let (g, left) := h.atPriority priority supply
          if priority ≠ Item.priority h.item ∧ c.containsCopy g then ⟨.ok .unchanged, c, left⟩
          else settle g c left := by
  have own_priority : merge none h c supply =
      if c.contains h then ⟨.ok .unchanged, c, supply⟩ else settle h c supply := rfl
  cases contexts with
  | none => simp only [own_priority, priorityIn, Handle.atPriority_self, ne_eq, not_true_eq_false,
      false_and, if_false]
  | some set =>
      unfold merge
      cases value : set.evaluateItem h.item with
      | error e => simp only [priorityIn_some, value]
      | ok priority =>
          by_cases changed : priority = Item.priority h.item
          · simp only [priorityIn_some, value, changed, Handle.atPriority_self, ne_eq,
              not_true_eq_false, false_and, if_false, if_true]
          · simp only [priorityIn_some, value, Handle.atPriority_of_ne changed, Supply.take,
              if_neg changed]
            rcases Bool.eq_false_or_eq_true (c.containsCopy (h.withPriority priority supply.next))
              with found | found
            · simp only [found, if_true, ne_eq, changed, not_false_eq_true, and_self]
            · simp only [found, Bool.false_eq_true, and_false, if_false]

theorem settle_eq (g : Handle T) (c : Chain T) (supply : Supply) :
    settle g c supply =
      match c.decide g with
      | .ok (change, items) => ⟨.ok change, { c with items }, supply⟩
      | .error e => ⟨.error e, c, supply⟩ := rfl

/-- What a merge that succeeds did: it found the definition or a copy of it, or the chain took in
the definition at its priority in the contexts. -/
theorem cases_of_merge_eq_ok (ok : (merge contexts h c supply).result = .ok change) :
    (change = .unchanged ∧ (merge contexts h c supply).state = c ∧
      (c.contains h = true ∨ ∃ priority, priorityIn contexts h.item = .ok priority ∧
        priority ≠ Item.priority h.item ∧
        c.containsCopy (h.atPriority priority supply).1 = true)) ∨
    (c.contains h = false ∧ ∃ priority items, priorityIn contexts h.item = .ok priority ∧
      c.Accepts (h.atPriority priority supply).1 change items ∧
      (merge contexts h c supply).state = { c with items }) := by
  rw [merge_eq] at ok ⊢
  split
  · next found =>
    rw [if_pos found] at ok
    exact .inl ⟨(Except.ok.inj ok).symm, rfl, .inl found⟩
  next absent =>
  rw [if_neg absent] at ok
  cases value : priorityIn contexts h.item with
  | error e =>
      rw [value] at ok
      exact absurd ok nofun
  | ok priority =>
      simp only [value] at ok ⊢
      split
      · next found =>
        rw [if_pos found] at ok
        exact .inl ⟨(Except.ok.inj ok).symm, rfl, .inr ⟨priority, rfl, found⟩⟩
      · next fresh =>
        rw [if_neg fresh] at ok
        rw [settle_eq] at ok ⊢
        cases decision : c.decide (h.atPriority priority supply).1 with
        | error e =>
            rw [decision] at ok
            exact absurd ok nofun
        | ok outcome =>
            rw [decision] at ok
            obtain rfl := Except.ok.inj ok
            exact .inr ⟨eq_false_of_ne_true absent, priority, outcome.2, rfl,
              accepts_of_decide decision, rfl⟩

theorem state_of_merge_eq_unchanged
    (ok : (merge contexts h c supply).result = .ok .unchanged) :
    (merge contexts h c supply).state = c := by
  rcases cases_of_merge_eq_ok ok with ⟨-, same, -⟩ | ⟨-, priority, items, -, accepts, after⟩
  · exact same
  · rw [after, accepts.items_of_unchanged]

/-- A merge that changes nothing found the definition or a copy of it, or the chain has no use for
the definition. -/
theorem merge_eq_unchanged_iff : (merge contexts h c supply).result = .ok .unchanged ↔
    c.contains h = true ∨ ∃ priority, priorityIn contexts h.item = .ok priority ∧
      (priority ≠ Item.priority h.item ∧ c.containsCopy (h.atPriority priority supply).1 = true ∨
        c.Accepts (h.atPriority priority supply).1 .unchanged c.items) := by
  constructor
  · intro ok
    rcases cases_of_merge_eq_ok ok with
      ⟨-, -, found | ⟨priority, value, found⟩⟩ | ⟨-, priority, items, value, accepts, -⟩
    · exact .inl found
    · exact .inr ⟨priority, value, .inl found⟩
    · exact .inr ⟨priority, value, .inr (accepts.items_of_unchanged ▸ accepts)⟩
  · intro reason
    rw [merge_eq]
    split
    · rfl
    next absent =>
    rcases reason with found | ⟨priority, value, reason⟩
    · exact absurd found absent
    simp only [value]
    split
    · rfl
    next fresh =>
    rcases reason with found | accepts
    · exact absurd found fresh
    · rw [settle_eq, accepts.decide_eq]

omit [Item T] in
theorem contains_of_mem (member : h ∈ c.items) : c.contains h = true :=
  List.any_eq_true.mpr ⟨h, member, beq_self_eq_true _⟩

theorem containsCopy_of_mem [LawfulItem T] {x y : Handle T} (member : x ∈ c.items)
    (item : x.item = y.item) (origin : x.origin = y.origin) : c.containsCopy y = true :=
  List.any_eq_true.mpr ⟨x, member, Handle.copies_of_eq item origin⟩

/-- Copies are looked for by item and origin, and not by their cells. -/
theorem containsCopy_congr {x y : Handle T} (item : x.item = y.item)
    (origin : x.origin = y.origin) : c.containsCopy x = c.containsCopy y := by
  unfold containsCopy
  congr 1
  funext entry
  exact Handle.copies_congr rfl rfl item origin

/-- What was merged once does nothing when it is merged again. -/
theorem merge_merge [LawfulItem T] (ok : (merge contexts h c supply).result = .ok change)
    (later : Supply) :
    (merge contexts h (merge contexts h c supply).state later).result = .ok .unchanged := by
  rw [merge_eq_unchanged_iff]
  rcases cases_of_merge_eq_ok ok with
    ⟨-, same, found | ⟨priority, value, changed, found⟩⟩ |
      ⟨-, priority, items, value, accepts, after⟩
  · rw [same]
    exact .inl found
  · rw [same]
    refine .inr ⟨priority, value, .inl ⟨changed, ?_⟩⟩
    rw [← found]
    exact containsCopy_congr (by simp) (by simp)
  · rw [after]
    -- The second merge finds the definition by its cell, or its copy, which lies in another one.
    rcases accepts.settled with member | useless
    · by_cases changed : priority = Item.priority h.item
      · subst changed
        rw [Handle.atPriority_self] at member
        exact .inl (contains_of_mem member)
      · exact .inr ⟨priority, value, .inl ⟨changed,
          containsCopy_of_mem member (by simp) (by simp)⟩⟩
    · exact .inr ⟨priority, value, .inr (useless _ (by simp))⟩

/-- A definition without a directive leaves no chain empty. -/
theorem items_ne_nil_of_merge (plain : ∀ priority,
      Item.directive (h.atPriority priority supply).1.item = .ok none)
    (ok : (merge contexts h c supply).result = .ok change) :
    (merge contexts h c supply).state.items ≠ [] := by
  have nonempty {p : Handle T → Bool} (found : c.items.any p = true) : c.items ≠ [] := by
    intro empty
    simp [empty] at found
  rcases cases_of_merge_eq_ok ok with
    ⟨-, same, found | ⟨_, _, _, found⟩⟩ | ⟨-, priority, items, -, accepts, after⟩
  · rw [same]
    exact nonempty found
  · rw [same]
    exact nonempty found
  · rw [after]
    exact accepts.ne_nil_of_plain (plain priority)

/-- A merge that fails leaves the chain as it was. -/
theorem state_of_merge_eq_error {e : MergeError}
    (failed : (merge contexts h c supply).result = .error e) :
    (merge contexts h c supply).state = c := by
  rw [merge_eq] at failed ⊢
  split
  · rfl
  next absent =>
  rw [if_neg absent] at failed
  cases value : priorityIn contexts h.item with
  | error e => rfl
  | ok priority =>
      simp only [value] at failed ⊢
      split
      · rfl
      · next fresh =>
        rw [if_neg fresh] at failed
        rw [settle_eq] at failed ⊢
        cases decision : c.decide (h.atPriority priority supply).1 with
        | error e => rfl
        | ok outcome =>
            rw [decision] at failed
            exact absurd failed nofun

/-- Merging changes nothing of a chain but its items, and what it puts there is the definition at
its priority in the contexts. -/
theorem merge_frame (contexts : Option ContextSet) (h : Handle T) (c : Chain T)
    (supply : Supply) :
    ∃ items, (merge contexts h c supply).state = { c with items } ∧ ∀ x ∈ items, x ∈ c.items ∨
      ∃ priority, priorityIn contexts h.item = .ok priority ∧
        x = (h.atPriority priority supply).1 := by
  cases result : (merge contexts h c supply).result with
  | error e => exact ⟨c.items, state_of_merge_eq_error result, fun _ => .inl⟩
  | ok change =>
      rcases cases_of_merge_eq_ok result with
        ⟨-, same, -⟩ | ⟨-, priority, items, is, accepts, after⟩
      · exact ⟨c.items, same, fun _ => .inl⟩
      · exact ⟨items, after, fun x member =>
          (accepts.mem member).imp_right fun eq => ⟨priority, is, eq⟩⟩

/-- Merging hands out cells and takes none back. -/
theorem le_next_supply_merge (contexts : Option ContextSet) (h : Handle T) (c : Chain T)
    (supply : Supply) : supply.next ≤ (merge contexts h c supply).supply.next := by
  have taken (priority : Int32) : supply.next ≤ (h.atPriority priority supply).2.next := by
    unfold Handle.atPriority
    split
    · exact Nat.le_refl _
    · exact Nat.le_succ _
  rw [merge_eq]
  split
  · exact Nat.le_refl _
  cases priorityIn contexts h.item with
  | error e => exact Nat.le_refl _
  | ok priority =>
      dsimp only
      split
      · exact taken priority
      · rw [settle_eq]
        split <;> exact taken priority

@[simp] theorem key_merge : (merge contexts h c supply).state.key = c.key := by
  obtain ⟨items, after, -⟩ := merge_frame contexts h c supply
  rw [after]

@[simp] theorem rules_merge : (merge contexts h c supply).state.rules = c.rules := by
  obtain ⟨items, after, -⟩ := merge_frame contexts h c supply
  rw [after]

@[simp] theorem scope_merge : (merge contexts h c supply).state.scope = c.scope := by
  obtain ⟨items, after, -⟩ := merge_frame contexts h c supply
  rw [after]

@[simp] theorem key_mergeChain (contexts : Option ContextSet) (other c : Chain T)
    (supply : Supply) : (mergeChain contexts other c supply).state.key = c.key :=
  Action.each_keeps (P := fun after => after.key = c.key)
    (fun _ _ _ _ same => key_merge.trans same) c supply rfl

instance : LawfulSlot (Chain T) where
  key_absorb other c supply same := (key_mergeChain none other c supply).trans same

end HostProfile.Chain
