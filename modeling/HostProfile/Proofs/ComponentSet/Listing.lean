import HostProfile.Proofs.ComponentSet.Reachable
import HostProfile.Proofs.ItemTable.Listing

/-!
# Sorted listings of component sets

The sorted listing of a set has the components that show anything in the order of their names, each
with the sorted listing of its resources. So it tells nothing but these, and it makes no difference
whether a component that shows nothing is in the set.
-/

namespace HostProfile.ComponentSet

variable {s s' : ComponentSet} {name : String} {order : OutputOrder}

/-- The resources of a component that are shown, in the order of buckets and chains. -/
def itemsAt (s : ComponentSet) (visibility : Visibility) (name : String) : List Resource :=
  (s.componentAt name).resources.items visibility

/-- The names of the components in order, each with the resources that are shown. -/
def sortedItems (s : ComponentSet) (order : OutputOrder) : List (String × List Resource) :=
  (s.sortedBy order).map fun entry => (entry.1, entry.2.map (·.item))

theorem slots_componentAt_of_absent (absent : s.find? name = none) :
    (s.componentAt name).resources.table.slots = [] := by
  rw [componentAt_of_none absent]
  exact KeyedTable.slots_withBuckets _

theorem itemsAt_of_absent (absent : s.find? name = none) (visibility : Visibility) :
    s.itemsAt visibility name = [] := by
  rw [itemsAt, ItemTable.items_eq, slots_componentAt_of_absent absent, List.flatMap_nil]

theorem sortedBy_of_absent (absent : s.find? name = none) (order : OutputOrder) :
    (s.componentAt name).resources.sortedBy order = [] := by
  rw [ItemTable.sortedBy, ItemTable.sortedChains, slots_componentAt_of_absent absent,
    List.mergeSort_nil, List.flatMap_nil]

/-- A merge into one component leaves what the others show. -/
theorem itemsAt_mergeResource_of_ne (wf : s.WellFormed) {other : String} (ne : name ≠ other)
    (h : Handle Resource) (supply : Supply) (visibility : Visibility) :
    (mergeResource other h s supply).state.itemsAt visibility name = s.itemsAt visibility name := by
  cases valid : Component.checkName other with
  | error e => rw [mergeResource_of_error valid]
  | ok _ =>
      have found := (upsert_sound wf other (Component.merge h) (fun _ _ => rfl) supply).2.2.2 name
      rw [if_neg ne] at found
      rw [mergeResource_of_ok valid, itemsAt, componentAt, found]
      rfl

namespace WellFormed

/-- The listing has the components of the set that show anything. -/
theorem mem_sortedBy_iff (wf : s.WellFormed) {handles : List (Handle Resource)} :
    (name, handles) ∈ s.sortedBy order ↔
      handles ≠ [] ∧ ∃ c, s.find? name = some c ∧ c.resources.sortedBy order = handles := by
  have shown : (!handles.isEmpty) = true ↔ handles ≠ [] := by
    rw [Bool.not_eq_true', List.isEmpty_eq_false_iff]
  rw [sortedBy, List.mem_filter, shown, and_comm, and_congr_right_iff]
  intro _
  rw [List.mem_map]
  refine exists_congr fun c => ?_
  rw [List.mem_mergeSort, Prod.mk.injEq, ← and_assoc]
  exact and_congr_left' wf.sound.find?_eq_some_iff.symm

theorem pairwise_sortedBy (wf : s.WellFormed) (order : OutputOrder) :
    (s.sortedBy order).Pairwise fun a b => order.case.compare a.1 b.1 = .lt :=
  (List.pairwise_map.mpr (wf.sound.pairwise_mergeSort order.case.compare)).filter _

theorem mem_sortedBy_iff_componentAt (wf : s.WellFormed) {handles : List (Handle Resource)} :
    (name, handles) ∈ s.sortedBy order ↔
      handles ≠ [] ∧ (s.componentAt name).resources.sortedBy order = handles := by
  rw [wf.mem_sortedBy_iff, and_congr_right_iff]
  intro shown
  cases found : s.find? name with
  | none =>
      rw [sortedBy_of_absent found]
      exact ⟨fun ⟨_, is, _⟩ => absurd is nofun, fun empty => absurd empty.symm shown⟩
  | some c =>
      rw [componentAt_of_some found]
      exact ⟨fun ⟨_, is, listed⟩ => Option.some.inj is ▸ listed, fun listed => ⟨c, rfl, listed⟩⟩

theorem mem_sortedItems_iff (wf : s.WellFormed) {items : List Resource} :
    (name, items) ∈ s.sortedItems order ↔
      (s.componentAt name).resources.sortedItems order = items ∧ items ≠ [] := by
  rw [sortedItems, List.mem_map]
  constructor
  · rintro ⟨⟨k, handles⟩, listed, same⟩
    obtain ⟨rfl, rfl⟩ := Prod.mk.inj same
    obtain ⟨shown, rfl⟩ := wf.mem_sortedBy_iff_componentAt.mp listed
    exact ⟨rfl, List.map_eq_nil_iff.not.mpr shown⟩
  · rintro ⟨rfl, shown⟩
    have listed := wf.mem_sortedBy_iff_componentAt.mpr ⟨List.map_eq_nil_iff.not.mp shown, rfl⟩
    exact ⟨_, listed, rfl⟩

theorem pairwise_sortedItems (wf : s.WellFormed) (order : OutputOrder) :
    (s.sortedItems order).Pairwise fun a b => order.case.compare a.1 b.1 = .lt :=
  List.pairwise_map.mpr (wf.pairwise_sortedBy order)

end WellFormed

/-- Sets whose components list the same handles list the same handles. -/
theorem sortedBy_eq_of_componentAt (wf : s.WellFormed) (wf' : s'.WellFormed)
    (listed : ∀ name, (s.componentAt name).resources.sortedBy order =
      (s'.componentAt name).resources.sortedBy order) :
    s.sortedBy order = s'.sortedBy order := by
  have := transCmp_on order.case.compare (Prod.fst : String × List (Handle Resource) → String)
  refine eq_of_strictly_sorted (wf.pairwise_sortedBy order) (wf'.pairwise_sortedBy order) ?_
  rintro ⟨name, handles⟩
  rw [wf.mem_sortedBy_iff_componentAt, wf'.mem_sortedBy_iff_componentAt, listed]

/-- Two sets have the same sorted listing exactly when all components have, whether they are in
the sets or not. -/
theorem sortedItems_eq_iff_componentAt (wf : s.WellFormed) (wf' : s'.WellFormed) :
    s.sortedItems order = s'.sortedItems order ↔ ∀ name,
      (s.componentAt name).resources.sortedItems order =
        (s'.componentAt name).resources.sortedItems order := by
  constructor
  · intro same name
    have listed (items : List Resource) :
        (s.componentAt name).resources.sortedItems order = items ∧ items ≠ [] ↔
          (s'.componentAt name).resources.sortedItems order = items ∧ items ≠ [] := by
      rw [← wf.mem_sortedItems_iff, same, wf'.mem_sortedItems_iff]
    by_cases shown : (s.componentAt name).resources.sortedItems order = []
    · by_contra differ
      exact differ ((listed _).mpr ⟨rfl, fun empty => differ (shown.trans empty.symm)⟩).1
    · exact ((listed _).mp ⟨rfl, shown⟩).1.symm
  · intro same
    have := transCmp_on order.case.compare (Prod.fst : String × List Resource → String)
    refine eq_of_strictly_sorted (wf.pairwise_sortedItems order) (wf'.pairwise_sortedItems order) ?_
    rintro ⟨name, items⟩
    rw [wf.mem_sortedItems_iff, wf'.mem_sortedItems_iff, same]

/-- Two sets have the same sorted listing exactly when each component shows the resources of the
same fields in the same order. -/
theorem sortedItems_eq_iff (wf : s.WellFormed) (wf' : s'.WellFormed) (order : OutputOrder) :
    s.sortedItems order = s'.sortedItems order ↔ ∀ name,
      ClasswiseEq (s.itemsAt order.visibility name) (s'.itemsAt order.visibility name) := by
  rw [sortedItems_eq_iff_componentAt wf wf']
  refine forall_congr' fun name => ?_
  have fits := wf.fits_componentAt name
  have fits' := wf'.fits_componentAt name
  exact ItemTable.sortedItems_eq_iff fits.wellFormed fits'.wellFormed
    (fits.bucket.trans fits'.bucket.symm) order

end HostProfile.ComponentSet
