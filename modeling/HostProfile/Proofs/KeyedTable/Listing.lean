import HostProfile.Order
import HostProfile.Proofs.KeyedTable.InPlace
import HostProfile.Proofs.Sorting
import Mathlib.Data.List.Forall2

/-!
# Listings of a table

In which buckets the slots lie depends on how they came into a table. What is listed in the order of
the keys does not: tables that find the same under each key list the same, whatever the order.
-/

namespace HostProfile

/-! ## Corresponding lists -/

theorem forall₂_of_map_eq {α β : Type} {f : α → β} {R : α → α → Prop} {xs ys : List α}
    (same : xs.map f = ys.map f) (each : ∀ x ∈ xs, ∀ y ∈ ys, f x = f y → R x y) :
    List.Forall₂ R xs ys := by
  have images : List.Forall₂ (fun x y => f x = f y) xs ys := by
    rw [← List.forall₂_map_right_iff, ← List.forall₂_map_left_iff, List.forall₂_eq_eq_eq]
    exact same
  obtain ⟨length, pairs⟩ := List.forall₂_iff_zip.mp images
  refine List.forall₂_iff_zip.mpr ⟨length, fun {x y} member => ?_⟩
  obtain ⟨left, right⟩ := List.of_mem_zip member
  exact each x left y right (pairs member)

theorem map_eq_of_forall₂ {α β : Type} {f : α → β} {R : α → α → Prop} {xs ys : List α}
    (related : List.Forall₂ R xs ys) (same : ∀ x y, R x y → f x = f y) : xs.map f = ys.map f := by
  rw [← List.forall₂_eq_eq_eq, List.forall₂_map_left_iff, List.forall₂_map_right_iff]
  exact related.imp same

theorem perm_flatMap_of_forall₂ {α β : Type} {f : α → List β} {R : α → α → Prop} {xs ys : List α}
    (related : List.Forall₂ R xs ys) (each : ∀ x y, R x y → (f x).Perm (f y)) :
    (xs.flatMap f).Perm (ys.flatMap f) := by
  induction related with
  | nil => exact .refl _
  | cons head _ ih =>
      rw [List.flatMap_cons, List.flatMap_cons]
      exact (each _ _ head).append ih

/-- Where only one element of a list gives anything, that is all that is given. -/
theorem flatMap_of_unique {α β : Type} {f : α → List β} {xs : List α} {x : α} (nodup : xs.Nodup)
    (member : x ∈ xs) (others : ∀ y ∈ xs, y ≠ x → f y = []) : xs.flatMap f = f x := by
  induction xs with
  | nil => exact absurd member List.not_mem_nil
  | cons y rest ih =>
      rw [List.nodup_cons] at nodup
      rw [List.flatMap_cons]
      rcases List.mem_cons.mp member with rfl | behind
      · have nothing : rest.flatMap f = [] := List.flatMap_eq_nil_iff.mpr fun z among =>
          others z (List.mem_cons_of_mem x among) fun same => nodup.1 (same ▸ among)
        rw [nothing, List.append_nil]
      · rw [others y List.mem_cons_self fun same => nodup.1 (same ▸ behind), List.nil_append]
        exact ih nodup.2 behind fun z among => others z (List.mem_cons_of_mem y among)

/-- Elements that give nothing may as well be dropped. -/
theorem flatMap_filter_of_nil {α β : Type} {f : α → List β} {p : α → Bool} {xs : List α}
    (dropped : ∀ x ∈ xs, p x = false → f x = []) : (xs.filter p).flatMap f = xs.flatMap f := by
  induction xs with
  | nil => rfl
  | cons x rest ih =>
      have tail := ih fun y member => dropped y (List.mem_cons_of_mem x member)
      rw [List.flatMap_cons]
      cases keep : p x with
      | true => rw [List.filter_cons_of_pos keep, List.flatMap_cons, tail]
      | false =>
          rw [List.filter_cons_of_neg (by simp [keep]), dropped x List.mem_cons_self keep, tail,
            List.nil_append]

/-! ## Orders of keys -/

namespace CaseMode

variable (lower : Char → List Char) (case : CaseMode)

/-- The order of two keys, for any lower case of characters. -/
def compareBy : CaseMode → String → String → Ordering
  | sensitive => compare
  | insensitive => compareLex (compareOn fun s => s.toList.flatMap lower) compare

protected theorem compare_eq : case.compare = case.compareBy Text.lowercase := by
  cases case <;> rfl

instance : Std.TransCmp (case.compareBy lower) := by
  cases case with
  | sensitive => exact inferInstanceAs (Std.TransCmp (compare : String → String → Ordering))
  | insensitive => exact inferInstanceAs (Std.TransCmp (compareLex (compareOn _) compare))

instance : Std.LawfulEqCmp (case.compareBy lower) where
  eq_of_compare {a b} same := by
    cases case with
    | sensitive => exact Std.LawfulEqOrd.eq_of_compare same
    | insensitive => exact Std.LawfulEqOrd.eq_of_compare (Ordering.then_eq_eq.mp same).2
  compare_self := Std.ReflCmp.compare_self

instance : Std.TransCmp case.compare := by
  rw [CaseMode.compare_eq]
  infer_instance

instance : Std.LawfulEqCmp case.compare := by
  rw [CaseMode.compare_eq]
  infer_instance

end CaseMode

namespace KeyedTable

variable {S : Type} [Slot S] {t t' : KeyedTable S} {R : S → S → Prop}

/-- The number of items is a sum over the slots. -/
theorem itemCount_eq_foldr (t : KeyedTable S) :
    t.itemCount = (t.slots.map Slot.itemCount).foldr (fun n total => n + total) 0 := by
  rw [List.foldr_map]
  rfl

/-- Tables that find the same are related by equality. -/
theorem rel_eq_of_find?_eq (same : t'.find? = t.find?) (key : String) :
    Option.Rel Eq (t.find? key) (t'.find? key) := by
  rw [same]
  cases t.find? key with
  | none => exact .none
  | some s => exact .some rfl

namespace Sound

theorem mem_keys_iff (ht : t.Sound) {key : String} :
    key ∈ t.slots.map Slot.key ↔ (t.find? key).isNone = false := by
  rw [List.mem_map]
  constructor
  · rintro ⟨s, member, rfl⟩
    rw [ht.find?_eq_some_iff.mpr ⟨member, rfl⟩]
    rfl
  · intro found
    obtain ⟨s, is⟩ := Option.isSome_iff_exists.mp (Option.isNone_eq_false_iff.mp found)
    exact ⟨s, ht.find?_eq_some_iff.mp is⟩

variable (ht : t.Sound) (ht' : t'.Sound)
  (related : ∀ key, Option.Rel R (t.find? key) (t'.find? key))

include ht ht' related

theorem perm_keys : (t.slots.map Slot.key).Perm (t'.slots.map Slot.key) := by
  rw [List.perm_ext_iff_of_nodup ht.nodup_keys ht'.nodup_keys]
  intro key
  rw [ht.mem_keys_iff, ht'.mem_keys_iff, isNone_of_rel (related key)]

/-- Tables that are related under each key are so all along their sorted listings. -/
theorem forall₂_mergeSort (cmp : String → String → Ordering) [Std.TransCmp cmp]
    [Std.LawfulEqCmp cmp] :
    List.Forall₂ R (t.slots.mergeSort fun a b => (cmp (Slot.key a) (Slot.key b)).isLE)
      (t'.slots.mergeSort fun a b => (cmp (Slot.key a) (Slot.key b)).isLE) := by
  have keys (l : List S) : (l.mergeSort fun a b => (cmp (Slot.key a) (Slot.key b)).isLE).map
      Slot.key = (l.map Slot.key).mergeSort fun a b => (cmp a b).isLE :=
    List.map_mergeSort fun _ _ _ _ => rfl
  apply forall₂_of_map_eq (f := Slot.key)
  · rw [keys, keys]
    exact mergeSort_eq_of_perm (perm_keys ht ht' related)
      fun _ _ _ _ => Std.LawfulEqCmp.eq_of_compare
  · intro x hx y hy same
    have rel := related (Slot.key x)
    rw [ht.find?_eq_some_iff.mpr ⟨List.mem_mergeSort.mp hx, rfl⟩,
      ht'.find?_eq_some_iff.mpr ⟨List.mem_mergeSort.mp hy, same.symm⟩] at rel
    cases rel with
    | some rel => exact rel

theorem size_eq : t'.size = t.size := by
  have length := (perm_keys ht ht' related).length_eq
  rw [List.length_map, List.length_map] at length
  rw [size_eq_length_slots, size_eq_length_slots, length]

theorem itemCount_eq (counts : ∀ a b, R a b → Slot.itemCount a = Slot.itemCount b) :
    t'.itemCount = t.itemCount := by
  have sorted (u : KeyedTable S) : u.itemCount = ((u.slots.mergeSort fun a b =>
      (compare (Slot.key a) (Slot.key b)).isLE).map Slot.itemCount).foldr
        (fun n total => n + total) 0 := by
    rw [itemCount_eq_foldr]
    exact ((List.mergeSort_perm u.slots _).map Slot.itemCount).symm.foldr_eq 0
  rw [sorted, sorted, map_eq_of_forall₂ (forall₂_mergeSort ht ht' related compare) counts]

/-- What is collected from the slots of related tables differs in its order only. -/
theorem perm_flatMap {β : Type} {f : S → List β} (each : ∀ a b, R a b → (f a).Perm (f b)) :
    (t.slots.flatMap f).Perm (t'.slots.flatMap f) := by
  have sorted (u : KeyedTable S) := (List.mergeSort_perm u.slots fun a b =>
    (compare (Slot.key a) (Slot.key b)).isLE).flatMap_right f
  have listed := perm_flatMap_of_forall₂ (forall₂_mergeSort ht ht' related compare) each
  exact (sorted t).symm.trans (listed.trans (sorted t'))

end Sound

theorem Sound.eq_of_key_eq (ht : t.Sound) {a b : S} (ha : a ∈ t.slots) (hb : b ∈ t.slots)
    (same : Slot.key a = Slot.key b) : a = b := by
  have found := ht.find?_eq_some_iff.mpr ⟨ha, same⟩
  rw [ht.find?_eq_some_iff.mpr ⟨hb, rfl⟩] at found
  exact (Option.some.inj found).symm

/-- What only the slot of one key gives is given by the slot that is found under it. -/
theorem Sound.flatMap_of_key (ht : t.Sound) {α : Type} {f : S → List α} {key : String}
    (others : ∀ s ∈ t.slots, Slot.key s ≠ key → f s = []) :
    t.slots.flatMap f = ((t.find? key).map f).getD [] := by
  cases found : t.find? key with
  | none =>
      refine List.flatMap_eq_nil_iff.mpr fun s member => others s member fun same => ?_
      rw [ht.find?_eq_some_iff.mpr ⟨member, same⟩] at found
      exact absurd found nofun
  | some s =>
      obtain ⟨member, same⟩ := ht.find?_eq_some_iff.mp found
      refine flatMap_of_unique ht.nodup_slots member fun r among ne => others r among fun is => ?_
      exact ne (ht.eq_of_key_eq among member (is.trans same.symm))

/-- A listing in the order of the keys is in a strict order of them. -/
theorem Sound.pairwise_mergeSort (ht : t.Sound) (cmp : String → String → Ordering)
    [Std.TransCmp cmp] [Std.LawfulEqCmp cmp] :
    (t.slots.mergeSort fun a b => (cmp (Slot.key a) (Slot.key b)).isLE).Pairwise
      fun a b => cmp (Slot.key a) (Slot.key b) = .lt := by
  have := transCmp_on cmp (Slot.key : S → String)
  refine strictly_sorted_mergeSort (fun a b : S => cmp (Slot.key a) (Slot.key b)) ?_
  exact (List.pairwise_map.mp ht.nodup_keys).imp fun ne rank =>
    ne (Std.LawfulEqCmp.eq_of_compare rank)

theorem Sound.mem_slots_iff (ht : t.Sound) {s : S} :
    s ∈ t.slots ↔ t.find? (Slot.key s) = some s := by
  rw [ht.find?_eq_some_iff, and_iff_left rfl]

/-- Tables that find the same hold the same slots. -/
theorem Sound.perm_slots (ht : t.Sound) (ht' : t'.Sound) (same : t'.find? = t.find?) :
    t'.slots.Perm t.slots := by
  rw [List.perm_ext_iff_of_nodup ht'.nodup_slots ht.nodup_slots]
  intro s
  rw [ht'.mem_slots_iff, ht.mem_slots_iff, same]

/-- Tables that hold the same slots, in whatever buckets, find the same. -/
theorem Sound.find?_eq_of_perm (ht : t.Sound) (ht' : t'.Sound) (perm : t'.slots.Perm t.slots) :
    t'.find? = t.find? := by
  funext key
  refine Option.ext fun s => ?_
  rw [ht'.find?_eq_some_iff, ht.find?_eq_some_iff, perm.mem_iff]

/-! ## Slots that are changed or dropped -/

section

variable {f : S → S} {keep : S → Bool} (ht : t.Sound) (ht' : t'.Sound)
  (keeps : ∀ s, Slot.key (f s) = Slot.key s)
  (found : ∀ key, t'.find? key = ((t.find? key).map f).filter keep)

include ht ht' keeps found

/-- Where the second table has the changed slots that pass a test, it holds no others. -/
theorem Sound.mem_slots_of_found {a : S} : a ∈ t'.slots ↔ a ∈ (t.slots.map f).filter keep := by
  rw [ht'.mem_slots_iff, found, Option.filter_eq_some_iff, Option.map_eq_some_iff, List.mem_filter,
    List.mem_map]
  refine and_congr_left' (exists_congr fun s => and_congr_left ?_)
  rintro rfl
  rw [keeps, ht.mem_slots_iff]

theorem Sound.perm_of_found : t'.slots.Perm ((t.slots.map f).filter keep) := by
  have apart : (t.slots.map f).Nodup :=
    List.pairwise_map.mpr ((List.pairwise_map.mp ht.nodup_keys).imp fun {a b} ne same => ne (by
      rw [← keeps a, ← keeps b, same]))
  exact (List.perm_ext_iff_of_nodup ht'.nodup_slots (apart.filter keep)).mpr fun _ =>
    ht.mem_slots_of_found ht' keeps found

/-- It lists them in the order in which the first one lists them. -/
theorem Sound.mergeSort_of_found (cmp : String → String → Ordering) [Std.TransCmp cmp]
    [Std.LawfulEqCmp cmp] :
    (t'.slots.mergeSort fun a b => (cmp (Slot.key a) (Slot.key b)).isLE) =
      ((t.slots.mergeSort fun a b => (cmp (Slot.key a) (Slot.key b)).isLE).map f).filter keep := by
  have := transCmp_on cmp (Slot.key : S → String)
  have listed : ((t.slots.mergeSort fun a b => (cmp (Slot.key a) (Slot.key b)).isLE).map
      f).Pairwise fun a b => cmp (Slot.key a) (Slot.key b) = .lt := by
    refine List.pairwise_map.mpr ((ht.pairwise_mergeSort cmp).imp fun before => ?_)
    rw [keeps, keeps, before]
  refine eq_of_strictly_sorted (ht'.pairwise_mergeSort cmp) (listed.filter keep) fun a => ?_
  rw [List.mem_mergeSort, ht.mem_slots_of_found ht' keeps found]
  simp only [List.mem_filter, List.mem_map, List.mem_mergeSort]

end

omit [Slot S] in
/-- The count says nothing that the buckets do not say. -/
theorem eq_of_buckets (same : t.buckets = t'.buckets) : t = t' := by
  obtain ⟨buckets, entries, _, counted⟩ := t
  obtain ⟨buckets', entries', _, counted'⟩ := t'
  obtain rfl : buckets = buckets' := same
  obtain rfl : entries = entries' := counted.trans counted'.symm
  rfl

omit [Slot S] in
theorem mapSlots_eq_self {f : S → S} (same : ∀ s ∈ t.slots, f s = s) : t.mapSlots f = t := by
  have each (o : Option S) (member : o ∈ t.buckets) : o.map f = o := by
    cases o with
    | none => rfl
    | some s =>
        have stored : s ∈ t.slots :=
          List.mem_filterMap.mpr ⟨some s, Array.mem_toList_iff.mpr member, rfl⟩
        exact congrArg some (same s stored)
  exact eq_of_buckets ((Array.map_congr_left each).trans (Array.map_id' t.buckets))

theorem retain_eq_self {keep : S → Bool} (all : ∀ s ∈ t.slots, keep s = true) :
    t.retain keep = (t, 0) := by
  have none_doomed : t.slots.filter (!keep ·) = [] :=
    List.filter_eq_nil_iff.mpr fun s member => by simp [all s member]
  rw [retain, none_doomed]
  rfl

end KeyedTable

end HostProfile
