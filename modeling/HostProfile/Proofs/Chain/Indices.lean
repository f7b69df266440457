import HostProfile.Chain.Merge
import Mathlib.Data.List.FinRange

/-!
# Indices of a chain

A chain finds the entries with the key of a definition by their indices, takes entries out at
indices and exchanges one at an index. What it holds afterwards is told without indices: taking out
the matches leaves the entries that are none, and the exchanged entry is the first that passes a
test.
-/

namespace HostProfile.Chain

section

variable {α : Type} {p : α → Bool}

/-- The indices behind the first element are those of the rest moved on by one. -/
theorem finRange_cons (x : α) (xs : List α) : List.finRange (x :: xs).length =
    (0 : Fin (xs.length + 1)) :: (List.finRange xs.length).map Fin.succ := List.finRange_succ

/-- Taking elements out behind the first one leaves the first. -/
theorem foldr_eraseIdx_succ (x : α) (xs : List α) (indices : List (Fin xs.length)) :
    (indices.map Fin.succ).foldr (fun (i : Fin (x :: xs).length) ys => ys.eraseIdx i.val)
      (x :: xs) = x :: indices.foldr (fun i ys => ys.eraseIdx i.val) xs := by
  induction indices with
  | nil => rfl
  | cons i rest ih => rw [List.map_cons, List.foldr_cons, ih]; rfl

/-- Taking out the elements that pass a test, the last of them first, is filtering. -/
theorem foldr_eraseIdx (xs : List α) :
    ((List.finRange xs.length).filter fun i => p xs[i]).foldr
      (fun i ys => ys.eraseIdx i.val) xs = xs.filter (!p ·) := by
  induction xs with
  | nil => rfl
  | cons x rest ih =>
      have behind : ((List.finRange rest.length).map Fin.succ).filter
          (fun (i : Fin (x :: rest).length) => p (x :: rest)[i]) =
            ((List.finRange rest.length).filter fun i => p rest[i]).map Fin.succ :=
        List.filter_map
      rw [finRange_cons]
      cases passes : p x with
      | true =>
          rw [List.filter_cons_of_pos (by exact passes), behind, List.foldr_cons,
            foldr_eraseIdx_succ, ih, List.filter_cons_of_neg (by simp [passes])]
          rfl
      | false =>
          rw [List.filter_cons_of_neg (by exact ne_true_of_eq_false passes), behind,
            foldr_eraseIdx_succ, ih, List.filter_cons_of_pos (by simp [passes])]

end

variable {T : Type}

/-- Puts `h` in the place of the first handle that passes the test. -/
def replaceFirst (p : Handle T → Bool) (h : Handle T) : List (Handle T) → List (Handle T)
  | [] => []
  | x :: rest => if p x then h :: rest else x :: replaceFirst p h rest

/-- The first element that passes a test gives way at its index. -/
theorem set_of_find? {p : Handle T → Bool} {h : Handle T} {items : List (Handle T)}
    {i : Fin items.length}
    (found : (List.finRange items.length).find? (fun i => p items[i]) = some i) :
    items.set i h = replaceFirst p h items := by
  induction items with
  | nil => exact i.elim0
  | cons x rest ih =>
      rw [finRange_cons] at found
      cases passes : p x with
      | true =>
          rw [List.find?_cons_of_pos (by exact passes)] at found
          obtain rfl := Option.some.inj found
          rw [replaceFirst, if_pos passes]
          rfl
      | false =>
          rw [List.find?_cons_of_neg (by exact ne_true_of_eq_false passes), List.find?_map] at found
          obtain ⟨j, behind, rfl⟩ := Option.map_eq_some_iff.mp found
          rw [replaceFirst, if_neg (ne_true_of_eq_false passes), ← ih behind]
          rfl

variable [Item T] {c : Chain T} {item : T} {h : Handle T}

omit [Item T] in
theorem map_itemAt_finRange (c : Chain T) :
    (List.finRange c.items.length).map c.itemAt = c.items := List.map_getElem_finRange c.items

@[simp] theorem map_itemAt_matchIndices (c : Chain T) (item : T) :
    (c.matchIndices item).map c.itemAt = c.matching item := by
  have all := congrArg (List.filter (c.collides item)) c.map_itemAt_finRange
  rw [List.filter_map] at all
  exact all

theorem matching_eq_nil_iff : c.matching item = [] ↔ c.items.any (c.collides item) = false := by
  simp [matching, List.filter_eq_nil_iff]

theorem isEmpty_matchIndices (c : Chain T) (item : T) :
    (c.matchIndices item).isEmpty = !c.items.any (c.collides item) := by
  rw [← List.isEmpty_map (f := c.itemAt), map_itemAt_matchIndices, Bool.eq_iff_iff,
    List.isEmpty_iff, Bool.not_eq_true', matching_eq_nil_iff]

/-- The entries without those that define the same thing as the item. -/
theorem items_removeIndices (c : Chain T) (item : T) :
    (c.removeIndices (c.matchIndices item)).items = c.items.filter (!c.collides item ·) :=
  foldr_eraseIdx c.items

/-- What is found among the entries that define the same thing as the item. -/
theorem map_itemAt_find? (c : Chain T) (item : T) (q : Handle T → Bool) :
    ((c.matchIndices item).find? fun i => q (c.itemAt i)).map c.itemAt =
      (c.matching item).find? q := by
  rw [← map_itemAt_matchIndices, List.find?_map]
  rfl

theorem isSome_find?_matchIndices (c : Chain T) (item : T) (q : Handle T → Bool) :
    ((c.matchIndices item).find? fun i => q (c.itemAt i)).isSome =
      c.items.any fun x => c.collides item x && q x := by
  rw [← Option.isSome_map (f := c.itemAt), map_itemAt_find?, matching, List.isSome_find?,
    List.any_filter]

/-- The first of them that passes a test gives way. -/
theorem items_replaceAt {q : Handle T → Bool} {i : Fin c.items.length}
    (found : (c.matchIndices item).find? (fun i => q (c.itemAt i)) = some i) :
    (c.replaceAt i h).items = replaceFirst (fun x => c.collides item x && q x) h c.items := by
  simp only [matchIndices, List.find?_filter, Bool.decide_and, Bool.decide_eq_true] at found
  exact set_of_find? found

/-- The first of them gives way. -/
theorem items_replaceAt_first {i : Fin c.items.length} {others : List (Fin c.items.length)}
    (indices : c.matchIndices item = i :: others) :
    (c.replaceAt i h).items = replaceFirst (c.collides item) h c.items := by
  have found : (c.matchIndices item).find? (fun _ => true) = some i := by rw [indices]; rfl
  rw [items_replaceAt (q := fun _ => true) found]
  simp only [Bool.and_true]

/-- The first of them has the first index. -/
theorem exists_matchIndices {first : Handle T} (head : (c.matching item).head? = some first) :
    ∃ i others, c.matchIndices item = i :: others ∧ c.itemAt i = first := by
  rw [← map_itemAt_matchIndices, List.head?_map, Option.map_eq_some_iff] at head
  obtain ⟨i, head, is⟩ := head
  obtain ⟨others, indices⟩ := List.head?_eq_some_iff.mp head
  exact ⟨i, others, indices, is⟩

end HostProfile.Chain
