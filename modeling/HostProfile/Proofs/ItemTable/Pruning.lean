import HostProfile.Proofs.Chain.Winners
import HostProfile.Proofs.ItemTable.Chains
import HostProfile.Proofs.ItemTable.Indistinguishable

/-!
# Pruned tables

What chooses or lists active definitions passes over inactive ones, and a chain without definitions
gives nothing. So a pruned table, from which the inactive definitions and then the empty chains are
gone, shows the same active definitions as before, in whatever buckets its chains lie now.
-/

namespace HostProfile

variable {T : Type} [Item T]

theorem Item.isActive_eq_false_iff {a : T} : isActive a = false ↔ priority a < 0 := by
  rw [isActive, decide_eq_false_iff_not, Int32.not_le]

/-! ## Pruned chains -/

theorem best?_filter_active (hs : List (Handle T)) :
    best? (hs.filter (Item.isActive ·.item)) = best? hs := by
  rw [best?_eq, best?_eq, List.filter_filter]
  simp only [Bool.and_self]

namespace Chain

variable (c : Chain T)

@[simp] theorem active?_prune : c.prune.active? = c.active? := best?_filter_active c.items

@[simp] theorem activeFor?_prune (name : String) (arch : Option String) :
    c.prune.activeFor? name arch = c.activeFor? name arch := by
  unfold activeFor? prune
  rw [List.filter_comm, best?_filter_active]

@[simp] theorem prune_prune : c.prune.prune = c.prune := by
  simp only [prune, List.filter_filter, Bool.and_self]

@[simp] theorem resolved_prune : c.prune.resolved = c.resolved := by
  simp only [resolved, prune, List.filter_filter, Bool.and_self]

@[simp] theorem sorted_prune : c.prune.sorted .active = c.sorted .active :=
  congrArg (fun d : Chain T => sortHandles d.items) c.prune_prune

variable {c}

theorem isEmpty_iff : Slot.isEmpty c = true ↔ c.items = [] := List.isEmpty_iff

theorem sorted_of_nil (nothing : c.items = []) (visibility : Visibility) :
    c.sorted visibility = [] := by
  rw [sorted, visible, nothing]
  exact List.mergeSort_nil

theorem resolved_of_nil (nothing : c.items = []) : c.resolved = [] := by
  rw [resolved, nothing]
  rfl

end Chain

/-! ## Counting -/

theorem foldr_count {α β : Type} {count : α → Nat} {f : α → List β} {p : β → Bool}
    (each : ∀ a, count a = (f a).countP p) (xs : List α) :
    xs.foldr (fun a n => count a + n) 0 = (xs.flatMap f).countP p := by
  induction xs with
  | nil => rfl
  | cons x rest ih => rw [List.foldr_cons, List.flatMap_cons, List.countP_append, ih, each]

namespace ItemTable

variable {t : ItemTable T} {key : String}

theorem count_prune (t : ItemTable T) :
    t.prune.2 = t.handles.countP (Item.priority ·.item < 0) := by
  refine foldr_count (f := (·.items)) (fun c => ?_) t.table.slots
  refine congrArg (List.countP · c.items) (funext fun h => ?_)
  rw [Bool.eq_iff_iff, Bool.not_eq_true', Item.isActive_eq_false_iff, decide_eq_true_eq]

/-! ## Pruned tables -/

/-- What an empty chain does not give, and no pruning takes away, is found under each key as
before. -/
theorem bind_find?_prune (wf : t.WellFormed) {α : Type} {f : Chain T → Option α}
    (keeps : ∀ c, f c.prune = f c) (nothing : f (t.emptyChain key) = none) :
    (t.prune.1.find? key).bind f = (t.find? key).bind f := by
  rw [bind_find? nothing, bind_find? (t := t.prune.1) nothing, chainAt_prune wf, keeps]

theorem sortedChains_prune (wf : t.WellFormed) (case : CaseMode) :
    t.prune.1.sortedChains case =
      ((t.sortedChains case).map Chain.prune).filter (!Slot.isEmpty ·) :=
  wf.sound.mergeSort_of_found wf.prune.sound (f := Chain.prune) (fun _ => rfl) (find?_prune wf)
    case.compare

/-- Nor does it change in a listing. -/
theorem flatMap_sortedChains_prune (wf : t.WellFormed) {α : Type} {f : Chain T → List α}
    (keeps : ∀ c, f c.prune = f c) (nothing : ∀ c, c.items = [] → f c = []) (case : CaseMode) :
    (t.prune.1.sortedChains case).flatMap f = (t.sortedChains case).flatMap f := by
  rw [sortedChains_prune wf, flatMap_filter_of_nil, List.flatMap_map]
  · simp only [keeps]
  · intro c _ empty
    exact nothing c (Chain.isEmpty_iff.mp (by simpa using empty))

theorem sortedBy_prune (wf : t.WellFormed) (case : CaseMode) :
    t.prune.1.sortedBy ⟨case, .active⟩ = t.sortedBy ⟨case, .active⟩ :=
  flatMap_sortedChains_prune wf Chain.sorted_prune (fun _ nothing => Chain.sorted_of_nil nothing _)
    case

theorem resolve_prune (wf : t.WellFormed) : t.prune.1.resolve = t.resolve := by
  refine flatMap_sortedChains_prune wf (fun c => ?_) (fun c nothing => ?_) t.order.case
  · rw [c.resolved_prune]
  · rw [Chain.resolved_of_nil nothing]
    exact List.mergeSort_nil

theorem contents_prune (wf : t.WellFormed) : t.prune.1.contents = t.contents :=
  congrArg toJson (sortedBy_prune wf .sensitive)

theorem perm_handles_prune (wf : t.WellFormed) :
    t.prune.1.handles.Perm (t.handles.filter (Item.isActive ·.item)) := by
  have slots := wf.sound.perm_of_found wf.prune.sound (f := Chain.prune) (fun _ => rfl)
    (find?_prune wf)
  refine (slots.flatMap_right _).trans (.of_eq ?_)
  rw [flatMap_filter_of_nil, List.flatMap_map, handles, List.filter_flatMap]
  · rfl
  · intro c _ empty
    exact Chain.isEmpty_iff.mp (by simpa using empty)

theorem mem_slots_prune (wf : t.WellFormed) {c : Chain T} (stored : c ∈ t.prune.1.table.slots) :
    c.items ≠ [] ∧ c.prune = c := by
  have left : c ∈ (t.table.slots.map Chain.prune).filter (!Slot.isEmpty ·) :=
    (wf.sound.mem_slots_of_found wf.prune.sound (f := Chain.prune) (fun _ => rfl)
      (find?_prune wf)).mp stored
  obtain ⟨pruned, nonempty⟩ := List.mem_filter.mp left
  obtain ⟨c, -, rfl⟩ := List.mem_map.mp pruned
  refine ⟨fun nothing => ?_, c.prune_prune⟩
  rw [Chain.isEmpty_iff.mpr nothing] at nonempty
  cases nonempty

/-- A pruned table is not changed by pruning. -/
theorem prune_prune (wf : t.WellFormed) : t.prune.1.prune = (t.prune.1, 0) := by
  have count : t.prune.1.prune.2 = 0 := by
    rw [count_prune, List.countP_eq_zero]
    intro h member
    have active := (List.mem_filter.mp ((perm_handles_prune wf).mem_iff.mp member)).2
    rw [decide_eq_true_eq, Int32.not_lt]
    exact of_decide_eq_true active
  have slots : (t.prune.1.table.mapSlots Chain.prune).retain (!Slot.isEmpty ·) =
      (t.prune.1.table, 0) := by
    rw [KeyedTable.mapSlots_eq_self fun c stored => (mem_slots_prune wf stored).2]
    refine KeyedTable.retain_eq_self fun c stored => ?_
    have nonempty := (mem_slots_prune wf stored).1
    rw [Bool.not_eq_true', ← Bool.not_eq_true, Chain.isEmpty_iff]
    exact nonempty
  exact Prod.ext (congrArg (fun slots => { t.prune.1 with table := slots.1 }) slots) count

end ItemTable

end HostProfile
