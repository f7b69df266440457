import HostProfile.Proofs.ItemTable.Reachable
import HostProfile.Proofs.KeyedTable.Listing

/-!
# Tables that cannot be told apart

Tables that find the same chains differ at most in the number and the order of their buckets, and
nothing that is counted, listed or digested shows the difference. A merge that fails leaves such a
table behind, also where it had put a chain into the table and made the table grow for it.
-/

namespace HostProfile.ItemTable

variable {T : Type} [Item T] {t t' : ItemTable T} {h : Handle T} {supply : Supply}

/-- The second table shows what the first one does, and holds the same chains in buckets of its
own. -/
structure Indistinguishable (t t' : ItemTable T) : Prop where
  find? : t'.find? = t.find?
  slots : t'.table.slots.Perm t.table.slots
  size : t'.size = t.size
  itemCount : t'.itemCount = t.itemCount
  rules : t'.rules = t.rules
  bucket : t'.bucket = t.bucket
  scope : t'.scope = t.scope
  contexts : t'.contexts = t.contexts
  order : t'.order = t.order
  sortedBy : t'.sortedBy = t.sortedBy
  resolve : t'.resolve = t.resolve
  signature : t'.signature = t.signature

/-- Tables that find the same chains have them in one order of their keys. -/
theorem sortedChains_eq (sound : t.table.Sound) (sound' : t'.table.Sound)
    (same : t'.find? = t.find?) : t'.sortedChains = t.sortedChains := by
  funext case
  have related := KeyedTable.rel_eq_of_find?_eq same
  have listed := KeyedTable.Sound.forall₂_mergeSort sound sound' related case.compare
  rw [List.forall₂_eq_eq_eq] at listed
  exact listed.symm

theorem sortedBy_eq_of_find? (sound : t.table.Sound) (sound' : t'.table.Sound)
    (same : t'.find? = t.find?) : t'.sortedBy = t.sortedBy := by
  unfold sortedBy
  rw [sortedChains_eq sound sound' same]

theorem resolve_eq_of_find? (sound : t.table.Sound) (sound' : t'.table.Sound)
    (same : t'.find? = t.find?) (order : t'.order = t.order) : t'.resolve = t.resolve := by
  rw [resolve, resolve, sortedChains_eq sound sound' same, order]

namespace Indistinguishable

theorem refl (t : ItemTable T) : t.Indistinguishable t :=
  ⟨rfl, .refl _, rfl, rfl, rfl, rfl, rfl, rfl, rfl, rfl, rfl, rfl⟩

theorem trans {t'' : ItemTable T} (first : t.Indistinguishable t')
    (second : t'.Indistinguishable t'') : t.Indistinguishable t'' where
  find? := second.find?.trans first.find?
  slots := second.slots.trans first.slots
  size := second.size.trans first.size
  itemCount := second.itemCount.trans first.itemCount
  rules := second.rules.trans first.rules
  bucket := second.bucket.trans first.bucket
  scope := second.scope.trans first.scope
  contexts := second.contexts.trans first.contexts
  order := second.order.trans first.order
  sortedBy := second.sortedBy.trans first.sortedBy
  resolve := second.resolve.trans first.resolve
  signature := second.signature.trans first.signature

theorem of_find? (sound : t.table.Sound) (sound' : t'.table.Sound)
    (same : t'.find? = t.find?) (settings : t' = { t with table := t'.table }) :
    t.Indistinguishable t' := by
  have related := KeyedTable.rel_eq_of_find?_eq same
  have order : t'.order = t.order := by rw [settings]
  have sortedBy := sortedBy_eq_of_find? sound sound' same
  exact {
    find? := same
    slots := sound.perm_slots sound' same
    size := KeyedTable.Sound.size_eq sound sound' related
    itemCount := KeyedTable.Sound.itemCount_eq sound sound' related
      fun _ _ same => congrArg Slot.itemCount same
    rules := by rw [settings]
    bucket := by rw [settings]
    scope := by rw [settings]
    contexts := by rw [settings]
    order
    sortedBy
    resolve := resolve_eq_of_find? sound sound' same order
    signature := by
      rw [ItemTable.signature, ItemTable.signature, ItemTable.contents, ItemTable.contents,
        sortedBy] }

/-- A merge that fails shows nowhere. -/
theorem of_merge_eq_error [LawfulItem T] (wf : t.WellFormed) {e : MergeError}
    (failed : (merge h t supply).result = .error e) :
    t.Indistinguishable (merge h t supply).state := by
  rw [result_merge wf] at failed
  have chain := Chain.state_of_merge_eq_error failed
  exact of_find? wf.sound (wf.merge h supply).sound (find?_merge_of_state wf chain) rfl

end Indistinguishable

end HostProfile.ItemTable
