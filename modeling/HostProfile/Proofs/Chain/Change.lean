import HostProfile.Proofs.Chain.Exclusive
import HostProfile.Proofs.Chain.Local
import HostProfile.Proofs.Context.Name

/-!
# What a reported change says

A merge that succeeds reports a change, and callers go by the report alone. `Reported` says for
each change what the chain holds after it. The entries that define something else than the
definition are none of its business: they stay, with their handles and in their order.
-/

namespace HostProfile

variable {T : Type} [Item T]

/-- The handle that is merged in the name of the definition: the copy of it at its priority in the
contexts, where it has one there. -/
def Handle.candidate (contexts : Option ContextSet) (h : Handle T) (supply : Supply) : Handle T :=
  match priorityIn contexts h.item with
  | .ok priority => (h.atPriority priority supply).1
  | .error _ => h

theorem Handle.candidate_eq {contexts : Option ContextSet} {h : Handle T} {priority : Int32}
    (value : priorityIn contexts h.item = .ok priority) (supply : Supply) :
    h.candidate contexts supply = (h.atPriority priority supply).1 := by
  rw [candidate, value]

namespace Chain

variable {c : Chain T} {g h : Handle T} {contexts : Option ContextSet} {supply : Supply}
  {change : Change} {items : List (Handle T)}

/-- The entries after a merge of the definition that reports the change. -/
inductive Reported (c : Chain T) (g : Handle T) : Change → List (Handle T) → Prop where
  | unchanged : Reported c g .unchanged c.items
  | added : Reported c g .added (c.items ++ [g])
  /-- There were entries with the key, and they are gone. -/
  | removed (clash : c.matching g.item ≠ []) :
      Reported c g .removed (c.items.filter (!c.collides g.item ·))
  /-- The definition stands where an entry with its key stood. -/
  | exchanged {before after : List (Handle T)} {x : Handle T}
      (collides : c.collides g.item x = true) (was : c.items = before ++ x :: after) :
      Reported c g .replaced (before ++ g :: after)
  /-- There were entries with the key; they are gone, and the definition stands at the end. -/
  | supplanted (clash : c.matching g.item ≠ []) :
      Reported c g .replaced (c.items.filter (!c.collides g.item ·) ++ [g])

theorem matching_ne_nil_iff {item : T} :
    c.matching item ≠ [] ↔ c.items.any (c.collides item) = true := by
  rw [ne_eq, matching_eq_nil_iff, Bool.not_eq_false]

/-- Dropping the entries with the key and putting the definition at the end is reported as what it
is, also where there is nothing to drop. -/
theorem reported_of_replaceAll
    (result : c.replaceAll g (c.matchIndices g.item) = (change, items)) :
    c.Reported g change items := by
  rw [replaceAll_eq] at result
  cases clash : c.items.any (c.collides g.item) with
  | true =>
      simp only [clash, if_true, Prod.mk.injEq] at result
      obtain ⟨rfl, rfl⟩ := result
      exact .supplanted (matching_ne_nil_iff.mpr clash)
  | false =>
      have all : c.items.filter (!c.collides g.item ·) = c.items := by
        apply List.filter_eq_self.mpr
        intro x member
        rw [eq_false_of_ne_true (List.any_eq_false.mp clash x member)]
        rfl
      simp only [clash, all, Bool.false_eq_true, if_false, Prod.mk.injEq] at result
      obtain ⟨rfl, rfl⟩ := result
      exact .added

/-- An entry that passes a test which only entries with the key pass gives way in its place. -/
theorem reported_of_replaceFirst {p : Handle T → Bool} (found : c.items.any p = true)
    (own : ∀ x, p x = true → c.collides g.item x = true) (absent : g ∉ c.items) :
    c.Reported g .replaced (replaceFirst p g c.items) := by
  rcases replaceFirst_eq p g c.items with same | ⟨before, x, after, passes, was, is⟩
  · exact absurd (same ▸ mem_replaceFirst_self found) absent
  · rw [is]
    exact .exchanged (own x passes) was

theorem Accepts.reported (accepts : c.Accepts g change items) (absent : g ∉ c.items) :
    c.Reported g change items := by
  cases accepts with
  | enforced _ _ _ result => exact reported_of_replaceAll result
  | removed _ _ clash => exact .removed (matching_ne_nil_iff.mpr clash)
  | vain => exact .unchanged
  | dispensable => exact .unchanged
  | needed => exact .added
  | appended => exact .added
  | outranked => exact .unchanged
  | squashed _ _ twin =>
      exact reported_of_replaceFirst twin (fun x is => (Bool.and_eq_true_iff.mp is).1) absent
  | beside => exact .added
  | displaced _ _ _ _ result => exact reported_of_replaceAll result
  | won contest =>
      exact reported_of_replaceFirst (any_collides_of_head contest.head) (fun x is => is) absent
  | lost => exact .unchanged

/-- Another change than `unchanged` shows in the entries, however these are looked at, if only the
definition looks different from each entry. -/
theorem Reported.eq_unchanged {α : Type} {f : Handle T → α} (reported : c.Reported g change items)
    (absent : f g ∉ c.items.map f) (same : items.map f = c.items.map f) : change = .unchanged := by
  have put (member : g ∈ items) : change = .unchanged :=
    absurd (same ▸ List.mem_map_of_mem member) absent
  cases reported with
  | unchanged => rfl
  | added => exact put (List.mem_append_right _ (List.mem_singleton_self g))
  | removed clash =>
      have fewer : (c.items.filter (!c.collides g.item ·)).length < c.items.length := by
        rw [List.length_filter_lt_length_iff_exists]
        obtain ⟨x, member⟩ := List.exists_mem_of_ne_nil _ clash
        obtain ⟨held, collides⟩ := List.mem_filter.mp member
        exact ⟨x, held, by rw [collides]; exact nofun⟩
      have equal := congrArg List.length same
      rw [List.length_map, List.length_map] at equal
      omega
  | exchanged => exact put (List.mem_append_right _ List.mem_cons_self)
  | supplanted => exact put (List.mem_append_right _ (List.mem_singleton_self g))

theorem Reported.ne_modified (reported : c.Reported g change items) : change ≠ .modified := by
  cases reported <;> decide

theorem candidate_of_absent (absent : c.contains h = false)
    (fresh : ∀ x ∈ c.items, x.cell ≠ supply.next) :
    (h.candidate contexts supply).cell ∉ c.items.map Handle.cell := by
  have own : h.cell ∉ c.items.map Handle.cell := by
    intro member
    obtain ⟨x, held, same⟩ := List.mem_map.mp member
    exact List.any_eq_false.mp absent x held (beq_iff_eq.mpr same)
  have copied : supply.next ∉ c.items.map Handle.cell := by
    intro member
    obtain ⟨x, held, same⟩ := List.mem_map.mp member
    exact fresh x held same
  unfold Handle.candidate Handle.atPriority
  split
  · split
    · exact own
    · exact copied
  · exact own

variable [LawfulItem T]

/-- Where the very handle that is merged is there already, it is found. -/
theorem eq_unchanged_of_candidate_mem (ok : (merge contexts h c supply).result = .ok change)
    (member : h.candidate contexts supply ∈ c.items) : change = .unchanged := by
  rcases cases_of_merge_eq_ok ok with ⟨same, -, -⟩ | ⟨absent, priority, items, value, -, -⟩
  · exact same
  rw [Handle.candidate_eq value] at member
  by_cases own : priority = Item.priority h.item
  · subst own
    rw [Handle.atPriority_self] at member
    exact absurd ((contains_of_mem member).symm.trans absent) nofun
  · have found := containsCopy_of_mem member rfl rfl
    have unchanged := merge_eq_unchanged_iff.mpr (.inr ⟨priority, value, .inl ⟨own, found⟩⟩)
    exact Except.ok.inj (ok.symm.trans unchanged)

/-- A merge touches nothing but the entries with the key of the definition, and the change that it
reports tells which: it is the right one of `Reported` and never `modified`, and it is `unchanged`
exactly when the chain holds the same definitions as before, and also exactly when it holds them in
the same cells as before, if the cell for a copy is a new one. -/
theorem reported_change (c : Chain T) (contexts : Option ContextSet) (h : Handle T)
    (supply : Supply) (ok : (merge contexts h c supply).result = .ok change) :
    let g := h.candidate contexts supply
    ∃ items, (merge contexts h c supply).state = { c with items } ∧
      c.Reported g change items ∧ change ≠ .modified ∧
      items.filter (!c.collides g.item ·) = c.items.filter (!c.collides g.item ·) ∧
      (change = .unchanged ↔ items = c.items) ∧
      ((∀ x ∈ c.items, x.cell ≠ supply.next) →
        (change = .unchanged ↔ items.map Handle.cell = c.items.map Handle.cell)) := by
  intro g
  by_cases untouched : change = .unchanged
  · subst untouched
    refine ⟨c.items, state_of_merge_eq_unchanged ok, .unchanged, nofun, rfl, ?_, fun _ => ?_⟩
    · exact iff_of_true rfl rfl
    · exact iff_of_true rfl rfl
  obtain ⟨same, -, -⟩ | ⟨absent, priority, items, value, accepts, after⟩ := cases_of_merge_eq_ok ok
  · exact absurd same untouched
  have is : g = (h.atPriority priority supply).1 := Handle.candidate_eq value supply
  rw [← is] at accepts
  have new : g ∉ c.items := fun member => untouched (eq_unchanged_of_candidate_mem ok member)
  have reported := accepts.reported new
  have others := accepts.filter_other (q := (!c.collides g.item ·))
    (by simp [collides, KeyScope.collides_refl]) (by simp)
  refine ⟨items, after, reported, reported.ne_modified, others, ?_, fun fresh => ?_⟩
  · refine iff_of_false untouched fun same => untouched ?_
    exact reported.eq_unchanged (f := id) (by simpa using new) (by rw [same])
  · exact iff_of_false untouched fun same =>
      untouched (reported.eq_unchanged (candidate_of_absent absent fresh) same)

/-- A copy of a definition, made for its priority on a laptop, takes the place of the two
definitions for its architecture, and that for the other architecture stays. -/
theorem reported_change_of_replaced :
    let laptop : ContextSet := ⟨⟨[("laptop", 1)], by decide⟩⟩
    let vim (cell : Cell) (arch context : String) : Handle Package :=
      ⟨cell, cell + 1, { name := "vim", arch := some arch, context }⟩
    let c : Chain Package := {
      key := "vim", scope := .nameArch, rules := { replace := true },
      items := [vim 0 "x86_64" "", vim 2 "aarch64" "", vim 4 "x86_64" "server"] }
    let copy := (vim 6 "x86_64" "laptop").withPriority 1 8
    (merge (some laptop) (vim 6 "x86_64" "laptop") c ⟨8⟩).result = .ok .replaced ∧
      c.Reported copy .replaced [vim 2 "aarch64" "", copy] := by
  intro laptop vim c copy
  have enabled : priorityIn (some laptop) (vim 6 "x86_64" "laptop").item = .ok 1 :=
    laptop.evaluate_of_isValidName (by decide)
  have candidate : (vim 6 "x86_64" "laptop").candidate (some laptop) ⟨8⟩ = copy :=
    Handle.candidate_eq enabled ⟨8⟩
  have ok : (merge (some laptop) (vim 6 "x86_64" "laptop") c ⟨8⟩).result = .ok .replaced := by
    rw [merge_eq, enabled]
    decide
  have after : (merge (some laptop) (vim 6 "x86_64" "laptop") c ⟨8⟩).state.items =
      [vim 2 "aarch64" "", copy] := by
    rw [merge_eq, enabled]
    decide
  obtain ⟨items, state, reported, -⟩ := reported_change c (some laptop) _ _ ok
  rw [state] at after
  rw [candidate] at reported
  exact ⟨ok, after ▸ reported⟩

end Chain

end HostProfile
