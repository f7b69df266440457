import Mathlib.Data.List.Perm.Basic

/-!
# Stable sorting

Sorting is stable: elements of one rank stay in the order in which they came. A sorted list is
therefore told completely by its ranks one by one, each with its elements in their order.
-/

namespace HostProfile

variable {α β : Type} {cmp : α → α → Ordering} [Std.TransCmp cmp]

omit [Std.TransCmp cmp] in
theorem isLE_total [Std.OrientedCmp cmp] (a b : α) :
    ((cmp a b).isLE || (cmp b a).isLE) = true := by
  have swap : cmp b a = (cmp a b).swap := Std.OrientedCmp.eq_swap
  rw [swap]
  cases cmp a b <;> rfl

/-- An order of values is one of the things that have them. -/
theorem transCmp_on (cmp : α → α → Ordering) [Std.TransCmp cmp] (f : β → α) :
    Std.TransCmp fun a b => cmp (f a) (f b) where
  eq_swap := Std.OrientedCmp.eq_swap
  isLE_trans := Std.TransCmp.isLE_trans

theorem pairwise_mergeSort (cmp : α → α → Ordering) [Std.TransCmp cmp] (l : List α) :
    (l.mergeSort fun a b => (cmp a b).isLE).Pairwise fun a b => (cmp a b).isLE = true :=
  List.pairwise_mergeSort (fun _ _ _ => Std.TransCmp.isLE_trans) isLE_total l

/-- Elements of different ranks come out of sorting in strict order. -/
theorem strictly_sorted_mergeSort (cmp : α → α → Ordering) [Std.TransCmp cmp] {l : List α}
    (apart : l.Pairwise fun a b => cmp a b ≠ .eq) :
    (l.mergeSort fun a b => (cmp a b).isLE).Pairwise fun a b => cmp a b = .lt := by
  have apart' := (List.mergeSort_perm l fun a b => (cmp a b).isLE).symm.pairwise apart
    fun ne eq => ne (Std.OrientedCmp.eq_symm eq)
  refine (List.Pairwise.and (pairwise_mergeSort cmp l) apart').imp fun {a b} ⟨le, ne⟩ => ?_
  cases rank : cmp a b with
  | lt => rfl
  | eq => exact absurd rank ne
  | gt =>
      rw [rank] at le
      exact absurd le nofun

/-- The elements of one rank come out of sorting as they went into it. -/
theorem filter_mergeSort {p : α → Bool} (ties : ∀ a b, p a = true → p b = true → cmp a b = .eq)
    (l : List α) : (l.mergeSort fun a b => (cmp a b).isLE).filter p = l.filter p := by
  have sorted : (l.filter p).Pairwise fun a b => (cmp a b).isLE = true :=
    List.pairwise_of_forall_mem_list fun a ha b hb => by
      rw [ties a b (List.mem_filter.mp ha).2 (List.mem_filter.mp hb).2]
      rfl
  have inside : (l.filter p).Sublist ((l.mergeSort fun a b => (cmp a b).isLE).filter p) := by
    have kept := (List.sublist_mergeSort (fun _ _ _ => Std.TransCmp.isLE_trans) isLE_total sorted
      List.filter_sublist).filter p
    simpa only [List.filter_filter, Bool.and_self] using kept
  exact (inside.eq_of_length ((List.mergeSort_perm l _).filter p).length_eq.symm).symm

/-- Two arrangements of a list are sorted alike when no two of its elements are of one rank. -/
theorem mergeSort_eq_of_perm {as bs : List α} (perm : as.Perm bs)
    (apart : ∀ a ∈ as, ∀ b ∈ as, cmp a b = .eq → a = b) :
    as.mergeSort (fun a b => (cmp a b).isLE) = bs.mergeSort (fun a b => (cmp a b).isLE) := by
  refine List.Perm.eq_of_pairwise ?_ (pairwise_mergeSort cmp as) (pairwise_mergeSort cmp bs) ?_
  · intro a b ha hb ab ba
    apply apart a (List.mem_mergeSort.mp ha) b (perm.mem_iff.mpr (List.mem_mergeSort.mp hb))
    exact Std.OrientedCmp.isLE_antisymm ab ba
  · exact (List.mergeSort_perm as _).trans (perm.trans (List.mergeSort_perm bs _).symm)

theorem mem_iff_of_filter_eq {xs ys : List α}
    (same : ∀ a, xs.filter (cmp a · == .eq) = ys.filter (cmp a · == .eq)) (a : α) :
    a ∈ xs ↔ a ∈ ys := by
  have held (l : List α) : a ∈ l ↔ a ∈ l.filter (cmp a · == .eq) := by
    rw [List.mem_filter, and_iff_left (beq_iff_eq.mpr Std.ReflCmp.compare_self)]
  rw [held xs, held ys, same]

theorem isLE_head {x a : α} {xs : List α}
    (sorted : (x :: xs).Pairwise fun a b => (cmp a b).isLE = true) (member : a ∈ x :: xs) :
    (cmp x a).isLE = true := by
  rcases List.mem_cons.mp member with rfl | behind
  · exact Std.ReflCmp.isLE_rfl
  · exact List.rel_of_pairwise_cons sorted behind

/-- Sorted lists are equal when they have the same elements of each rank in the same order. -/
theorem eq_of_sorted_of_filter_eq {xs ys : List α}
    (sorted : xs.Pairwise fun a b => (cmp a b).isLE = true)
    (sorted' : ys.Pairwise fun a b => (cmp a b).isLE = true)
    (same : ∀ a, xs.filter (cmp a · == .eq) = ys.filter (cmp a · == .eq)) : xs = ys := by
  induction xs generalizing ys with
  | nil =>
      refine (List.eq_nil_iff_forall_not_mem.mpr fun a member => ?_).symm
      exact List.not_mem_nil ((mem_iff_of_filter_eq same a).mpr member)
  | cons x xs ih =>
      obtain _ | ⟨y, ys⟩ := ys
      · exact absurd ((mem_iff_of_filter_eq same x).mp List.mem_cons_self) List.not_mem_nil
      -- Each head is in the other list, so that both are of the least rank.
      have level : cmp x y = .eq := Std.OrientedCmp.isLE_antisymm
        (isLE_head sorted ((mem_iff_of_filter_eq same y).mpr List.mem_cons_self))
        (isLE_head sorted' ((mem_iff_of_filter_eq same x).mp List.mem_cons_self))
      have own : cmp x x = .eq := Std.ReflCmp.compare_self
      have heads := same x
      rw [List.filter_cons, own, List.filter_cons, level] at heads
      obtain rfl := (List.cons.inj heads).1
      refine congrArg (x :: ·) (ih sorted.of_cons sorted'.of_cons fun a => ?_)
      have all := same a
      rw [List.filter_cons, List.filter_cons] at all
      split at all
      · exact (List.cons.inj all).2
      · exact all

/-- Strictly sorted lists with the same elements are equal. -/
theorem eq_of_strictly_sorted {xs ys : List α} (sorted : xs.Pairwise fun a b => cmp a b = .lt)
    (sorted' : ys.Pairwise fun a b => cmp a b = .lt) (same : ∀ a, a ∈ xs ↔ a ∈ ys) : xs = ys := by
  have nodup {l : List α} (sorted : l.Pairwise fun a b => cmp a b = .lt) : l.Nodup := by
    refine sorted.imp ?_
    rintro a _ before rfl
    exact absurd (Std.ReflCmp.compare_self.symm.trans before) nofun
  refine List.Perm.eq_of_pairwise (fun a b _ _ before after => ?_) sorted sorted'
    ((List.perm_ext_iff_of_nodup (nodup sorted) (nodup sorted')).mpr same)
  exact absurd (before.symm.trans (Std.OrientedCmp.gt_of_lt after)) nofun

/-- Strictly sorted lists correspond one by one when each element of either has its like, which is
of the same rank, in the other. -/
theorem forall₂_of_strictly_sorted {R : α → α → Prop} (ties : ∀ {x y}, R x y → cmp x y = .eq)
    {xs ys : List α} (sorted : xs.Pairwise fun a b => cmp a b = .lt)
    (sorted' : ys.Pairwise fun a b => cmp a b = .lt) (left : ∀ x ∈ xs, ∃ y ∈ ys, R x y)
    (right : ∀ y ∈ ys, ∃ x ∈ xs, R x y) : List.Forall₂ R xs ys := by
  induction xs generalizing ys with
  | nil =>
      obtain _ | ⟨y, ys⟩ := ys
      · exact .nil
      · obtain ⟨x, none, -⟩ := right y List.mem_cons_self
        exact absurd none List.not_mem_nil
  | cons x xs ih =>
      obtain _ | ⟨y, ys⟩ := ys
      · obtain ⟨y, none, -⟩ := left x List.mem_cons_self
        exact absurd none List.not_mem_nil
      have behind {x' : α} (member : x' ∈ xs) : cmp x x' = .lt :=
        List.rel_of_pairwise_cons sorted member
      have behind' {y' : α} (member : y' ∈ ys) : cmp y y' = .lt :=
        List.rel_of_pairwise_cons sorted' member
      -- Either head would have to come before the other if they were not alike.
      have heads : R x y := by
        obtain ⟨y', hy, xy'⟩ := left x List.mem_cons_self
        obtain ⟨x', hx, x'y⟩ := right y List.mem_cons_self
        rcases List.mem_cons.mp hy with rfl | hy
        · exact xy'
        rcases List.mem_cons.mp hx with rfl | hx
        · exact x'y
        have xy : cmp x y = .lt := (Std.TransCmp.congr_right (ties x'y)).symm.trans (behind hx)
        exact absurd ((ties xy').symm.trans (Std.TransCmp.lt_trans xy (behind' hy))) nofun
      refine .cons heads (ih sorted.of_cons sorted'.of_cons (fun x' hx => ?_) fun y' hy => ?_)
      · obtain ⟨y', hy, x'y'⟩ := left x' (List.mem_cons_of_mem x hx)
        rcases List.mem_cons.mp hy with rfl | hy
        · have before := (Std.TransCmp.congr_right (ties x'y')).symm.trans (behind hx)
          exact absurd ((ties heads).symm.trans before) nofun
        · exact ⟨y', hy, x'y'⟩
      · obtain ⟨x', hx, x'y'⟩ := right y' (List.mem_cons_of_mem y hy)
        rcases List.mem_cons.mp hx with rfl | hx
        · have before := (Std.TransCmp.congr_left (ties heads)).trans (behind' hy)
          exact absurd ((ties x'y').symm.trans before) nofun
        · exact ⟨x', hx, x'y'⟩

/-- Where at most one element of a list gives anything, the order of the list does not matter. -/
theorem flatMap_eq_of_perm {f : α → List β} {xs ys : List α} (perm : xs.Perm ys)
    (apart : ∀ x ∈ xs, ∀ y ∈ xs, f x ≠ [] → f y ≠ [] → x = y) : xs.flatMap f = ys.flatMap f := by
  induction perm with
  | nil => rfl
  | cons x _ ih =>
      rw [List.flatMap_cons, List.flatMap_cons, ih fun y hy z hz =>
        apart y (List.mem_cons_of_mem x hy) z (List.mem_cons_of_mem x hz)]
  | swap x y rest =>
      simp only [List.flatMap_cons, ← List.append_assoc]
      congr 1
      by_cases left : f x = []
      · rw [left, List.append_nil, List.nil_append]
      by_cases right : f y = []
      · rw [right, List.append_nil, List.nil_append]
      rw [apart x (by simp) y (by simp) left right]
  | trans first _ ih ih' =>
      rw [ih apart, ih' fun y hy z hz => apart y (first.mem_iff.mpr hy) z (first.mem_iff.mpr hz)]

end HostProfile
