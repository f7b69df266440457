import HostProfile.Proofs.ItemOrder
import HostProfile.Proofs.ItemTable.Chains
import HostProfile.Proofs.KeyedTable.Listing

/-!
# Sorted listings of item tables

The sorted listing of a table is in the order of bucket keys and then of items, and has the items
with the same fields in the order of the chain that holds them. These two facts tell it completely:
rules, buckets and the history of the table take no part in it.
-/

namespace HostProfile

variable {T : Type} [Item T]

/-! ## Lists of the same items -/

/-- For every item, both lists have the items with its fields in the same order. How items with
different fields are mixed may differ. -/
def ClasswiseEq (xs ys : List T) : Prop :=
  ∀ a : T, xs.filter (Item.sameFields a) = ys.filter (Item.sameFields a)

/-- Arrangements of a list agree in this way when no two of its items differ in nothing but
derivation or priority. -/
theorem ClasswiseEq.of_perm [LawfulItem T] {xs ys : List T} (perm : xs.Perm ys)
    (apart : ∀ x ∈ xs, ∀ y ∈ xs, Item.sameFields x y = true → x = y) : ClasswiseEq xs ys := by
  intro a
  refine List.Perm.eq_of_pairwise (fun x y hx hy _ _ => ?_)
    (List.pairwise_of_forall fun _ _ => trivial) (List.pairwise_of_forall fun _ _ => trivial)
    (perm.filter _)
  obtain ⟨in_xs, like⟩ := List.mem_filter.mp hx
  obtain ⟨in_ys, like'⟩ := List.mem_filter.mp hy
  rw [Item.sameFields_comm] at like
  exact apart x in_xs y (perm.mem_iff.mpr in_ys) (Item.sameFields_trans like like')

/-! ## The order of a listing -/

/-- The order of listings: first by bucket key, then by item. -/
def listingOrder (case : CaseMode) (bucket : KeyScope) : T → T → Ordering :=
  compareLex (fun a b => case.compare (bucket.key a) (bucket.key b)) Item.compare

instance [OrderedItem T] (case : CaseMode) (bucket : KeyScope) :
    Std.TransCmp (listingOrder case bucket : T → T → Ordering) :=
  have := transCmp_on case.compare (bucket.key : T → String)
  inferInstanceAs (Std.TransCmp (compareLex _ _))

theorem KeyScope.key_eq_of_sameFields [LawfulItem T] (bucket : KeyScope) {a b : T}
    (same : Item.sameFields a b = true) : bucket.key a = bucket.key b :=
  key_eq_of_collides (Nat.le_refl _) (bucket.collides_of_sameFields same)

/-- Only items with the same fields are of one rank. -/
theorem listingOrder_eq_iff [LawfulItem T] [OrderedItem T] {case : CaseMode} {bucket : KeyScope}
    {a b : T} : listingOrder case bucket a b = .eq ↔ Item.sameFields a b = true := by
  rw [listingOrder, compareLex, Ordering.then_eq_eq, OrderedItem.compare_eq_iff]
  refine and_iff_right_of_imp fun same => ?_
  rw [bucket.key_eq_of_sameFields same]
  exact Std.ReflCmp.compare_self

theorem map_item_sortHandles (handles : List (Handle T)) :
    (sortHandles handles).map (·.item) =
      (handles.map (·.item)).mergeSort fun a b => (Item.compare a b).isLE :=
  List.map_mergeSort fun _ _ _ _ => rfl

theorem perm_sortHandles (handles : List (Handle T)) : (sortHandles handles).Perm handles :=
  List.mergeSort_perm handles _

theorem pairwise_sortHandles [OrderedItem T] (handles : List (Handle T)) :
    (sortHandles handles).Pairwise fun x y => (Item.compare x.item y.item).isLE = true :=
  have := transCmp_on (Item.compare : T → T → Ordering) (Handle.item : Handle T → T)
  pairwise_mergeSort (fun x y : Handle T => Item.compare x.item y.item) handles

theorem Chain.visible_all (c : Chain T) : c.visible .all = c.items :=
  List.filter_eq_self.mpr fun _ _ => rfl

namespace ItemTable

variable {t t' : ItemTable T}

theorem visible_all (t : ItemTable T) : t.visible .all = t.handles := by
  simp only [visible, handles, Chain.visible_all]

/-- What the chain under one key alone gives is what it gives where it is found. -/
theorem WellFormed.flatMap_slots (wf : t.WellFormed) {α : Type} {f : Chain T → List α}
    {key : String} (others : ∀ c ∈ t.table.slots, c.key ≠ key → f c = [])
    (nothing : f (t.emptyChain key) = []) : t.table.slots.flatMap f = f (t.chainAt key) :=
  (wf.sound.flatMap_of_key others).trans (getD_map_find? nothing)

/-- The items that are shown, in the order of buckets and chains. -/
def items (t : ItemTable T) (visibility : Visibility) : List T :=
  (t.visible visibility).map (·.item)

/-- The items that are shown, by bucket key and then in the order of items. -/
def sortedItems (t : ItemTable T) (order : OutputOrder) : List T :=
  (t.sortedBy order).map (·.item)

/-- The items of a chain that are shown. -/
def chainItems (c : Chain T) (visibility : Visibility) : List T :=
  (c.visible visibility).map (·.item)

theorem items_eq (t : ItemTable T) (visibility : Visibility) :
    t.items visibility = t.table.slots.flatMap fun c => chainItems c visibility :=
  List.map_flatMap

theorem sortedItems_eq (t : ItemTable T) (order : OutputOrder) :
    t.sortedItems order = (t.sortedChains order.case).flatMap fun c =>
      (chainItems c order.visibility).mergeSort fun a b => (Item.compare a b).isLE := by
  rw [sortedItems, sortedBy, List.map_flatMap]
  simp only [Chain.sorted, map_item_sortHandles]
  rfl

/-- A sorted listing is an arrangement of what is shown. -/
theorem perm_sortedItems (t : ItemTable T) (order : OutputOrder) :
    (t.sortedItems order).Perm (t.items order.visibility) := by
  rw [sortedItems_eq, items_eq]
  refine (List.Perm.flatMap_left _ fun c _ => List.mergeSort_perm _ _).trans ?_
  exact (List.mergeSort_perm t.table.slots _).flatMap_right _

namespace WellFormed

theorem key_of_mem_chainItems (wf : t.WellFormed) {c : Chain T} (stored : c ∈ t.table.slots)
    {visibility : Visibility} {a : T} (member : a ∈ chainItems c visibility) :
    t.bucket.key a = c.key := by
  obtain ⟨h, shown, rfl⟩ := List.mem_map.mp member
  exact wf.keyOf_of_mem stored (List.mem_filter.mp shown).1

/-- A sorted listing lists what is shown, with the items of the same fields in their order. -/
theorem filter_sortedItems [LawfulItem T] [OrderedItem T] (wf : t.WellFormed)
    (order : OutputOrder) (a : T) :
    (t.sortedItems order).filter (Item.sameFields a) =
      (t.items order.visibility).filter (Item.sameFields a) := by
  have stable (l : List T) : (l.mergeSort fun a b => (Item.compare a b).isLE).filter
      (Item.sameFields a) = l.filter (Item.sameFields a) := by
    refine filter_mergeSort (fun x y like like' => ?_) l
    rw [Item.sameFields_comm] at like
    exact (OrderedItem.compare_eq_iff x y).mpr (Item.sameFields_trans like like')
  rw [sortedItems_eq, items_eq, List.filter_flatMap, List.filter_flatMap]
  simp only [stable]
  -- All items with the same fields lie in one chain, so that the order of the chains is irrelevant.
  refine (flatMap_eq_of_perm (List.mergeSort_perm t.table.slots _).symm ?_).symm
  have key_eq {c : Chain T} (stored : c ∈ t.table.slots)
      (some_like : (chainItems c order.visibility).filter (Item.sameFields a) ≠ []) :
      c.key = t.bucket.key a := by
    obtain ⟨x, member⟩ := List.exists_mem_of_ne_nil _ some_like
    obtain ⟨inside, like⟩ := List.mem_filter.mp member
    rw [← wf.key_of_mem_chainItems stored inside]
    exact (t.bucket.key_eq_of_sameFields like).symm
  intro c stored c' stored' some_like some_like'
  exact wf.sound.eq_of_key_eq stored stored'
    ((key_eq stored some_like).trans (key_eq stored' some_like').symm)

/-- Items that all have the same fields are listed as they lie in their chain. -/
theorem sortedItems_of_tied [LawfulItem T] [OrderedItem T] (wf : t.WellFormed)
    {order : OutputOrder} {a : T}
    (tied : ∀ x ∈ t.items order.visibility, Item.sameFields a x = true) :
    t.sortedItems order = t.items order.visibility := by
  have all : (t.sortedItems order).filter (Item.sameFields a) = t.sortedItems order :=
    List.filter_eq_self.mpr fun x member => tied x ((t.perm_sortedItems order).mem_iff.mp member)
  rw [← all, wf.filter_sortedItems, List.filter_eq_self.mpr tied]

/-- What holds along each chain of a listing, and between items with bucket keys in their order,
holds along the whole listing. -/
theorem pairwise_listing (wf : t.WellFormed) (case : CaseMode) {f : Chain T → List (Handle T)}
    {R : T → T → Prop} (inside : ∀ c ∈ t.table.slots, ∀ x ∈ f c, x ∈ c.items)
    (within : ∀ c ∈ t.table.slots, (sortHandles (f c)).Pairwise fun x y => R x.item y.item)
    (across : ∀ a b, case.compare (t.bucket.key a) (t.bucket.key b) = .lt → R a b) :
    ((t.sortedChains case).flatMap fun c => sortHandles (f c)).Pairwise
      fun x y => R x.item y.item := by
  have key_eq {c : Chain T} (sorted : c ∈ t.sortedChains case) {x : Handle T}
      (member : x ∈ sortHandles (f c)) : t.bucket.key x.item = c.key := by
    have stored := List.mem_mergeSort.mp sorted
    exact wf.keyOf_of_mem stored (inside c stored x (List.mem_mergeSort.mp member))
  rw [List.pairwise_flatMap]
  constructor
  · intro c sorted
    exact within c (List.mem_mergeSort.mp sorted)
  · refine (wf.sound.pairwise_mergeSort case.compare).imp_of_mem
      fun {c c'} hc hc' (before : case.compare c.key c'.key = .lt) x hx y hy => ?_
    apply across
    rw [key_eq hc hx, key_eq hc' hy]
    exact before

/-- Within a chain items are listed in their own order. -/
theorem listingOrder_eq_compare (wf : t.WellFormed) (case : CaseMode) {c : Chain T}
    (stored : c ∈ t.table.slots) {x y : Handle T} (hx : x ∈ c.items) (hy : y ∈ c.items) :
    listingOrder case t.bucket x.item y.item = Item.compare x.item y.item := by
  have hx : t.bucket.key x.item = c.key := wf.keyOf_of_mem stored hx
  have hy : t.bucket.key y.item = c.key := wf.keyOf_of_mem stored hy
  have own : case.compare c.key c.key = .eq := Std.ReflCmp.compare_self
  rw [listingOrder, compareLex, hx, hy, own]
  rfl

theorem listingOrder_eq_lt {case : CaseMode} {bucket : KeyScope} {a b : T}
    (before : case.compare (bucket.key a) (bucket.key b) = .lt) :
    listingOrder case bucket a b = .lt := by
  rw [listingOrder, compareLex, before]
  rfl

theorem pairwise_sortedItems [OrderedItem T] (wf : t.WellFormed) (order : OutputOrder) :
    (t.sortedItems order).Pairwise fun a b =>
      (listingOrder order.case t.bucket a b).isLE = true := by
  have inside {c : Chain T} {x : Handle T} (shown : x ∈ c.visible order.visibility) :
      x ∈ c.items := (List.mem_filter.mp shown).1
  refine List.pairwise_map.mpr (wf.pairwise_listing order.case
    (R := fun a b => (listingOrder order.case t.bucket a b).isLE = true) (fun _ _ _ => inside)
    (fun c stored => ?_) fun a b before => ?_)
  · refine (pairwise_sortHandles _).imp_of_mem fun hx hy le => ?_
    rw [wf.listingOrder_eq_compare order.case stored (inside (List.mem_mergeSort.mp hx))
      (inside (List.mem_mergeSort.mp hy))]
    exact le
  · rw [listingOrder_eq_lt before]
    rfl

/-- A listing is in a strict order when no two items of one chain in it have the same fields. -/
theorem strictly_sorted_listing [LawfulItem T] [OrderedItem T] (wf : t.WellFormed)
    (case : CaseMode) {f : Chain T → List (Handle T)}
    (inside : ∀ c ∈ t.table.slots, ∀ x ∈ f c, x ∈ c.items)
    (apart : ∀ c ∈ t.table.slots,
      (f c).Pairwise fun x y => Item.sameFields x.item y.item = false) :
    ((t.sortedChains case).flatMap fun c => sortHandles (f c)).Pairwise
      fun x y => listingOrder case t.bucket x.item y.item = .lt := by
  refine wf.pairwise_listing case (R := fun a b => listingOrder case t.bucket a b = .lt) inside
    (fun c stored => ?_) fun a b before => listingOrder_eq_lt before
  have differ : (sortHandles (f c)).Pairwise fun x y => Item.sameFields x.item y.item = false :=
    (perm_sortHandles (f c)).symm.pairwise (apart c stored)
      fun ne => (Item.sameFields_comm ..).trans ne
  refine ((pairwise_sortHandles (f c)).and differ).imp_of_mem fun {x y} hx hy ⟨le, ne⟩ => ?_
  rw [wf.listingOrder_eq_compare case stored (inside c stored x (List.mem_mergeSort.mp hx))
    (inside c stored y (List.mem_mergeSort.mp hy))]
  cases rank : Item.compare x.item y.item with
  | lt => rfl
  | eq =>
      rw [(OrderedItem.compare_eq_iff x.item y.item).mp rank] at ne
      exact absurd ne nofun
  | gt =>
      rw [rank] at le
      exact absurd le nofun

end WellFormed

/-- Two tables with the same bucket keys have the same sorted listing exactly when they have the
items of the same fields in the same order. -/
theorem sortedItems_eq_iff [LawfulItem T] [OrderedItem T] (wf : t.WellFormed)
    (wf' : t'.WellFormed) (bucket : t.bucket = t'.bucket) (order : OutputOrder) :
    t.sortedItems order = t'.sortedItems order ↔
      ClasswiseEq (t.items order.visibility) (t'.items order.visibility) := by
  have classes {u : ItemTable T} (wf : u.WellFormed) (a : T) :
      (u.sortedItems order).filter (listingOrder order.case u.bucket a · == .eq) =
        (u.items order.visibility).filter (Item.sameFields a) := by
    rw [← wf.filter_sortedItems]
    refine List.filter_congr fun x _ => ?_
    rw [Bool.eq_iff_iff, beq_iff_eq, listingOrder_eq_iff]
  constructor
  · intro same a
    rw [← wf.filter_sortedItems, ← wf'.filter_sortedItems, same]
  · intro agree
    refine eq_of_sorted_of_filter_eq (wf.pairwise_sortedItems order)
      (bucket ▸ wf'.pairwise_sortedItems order) fun a => ?_
    rw [classes wf, bucket, classes wf', agree]

end ItemTable

end HostProfile
