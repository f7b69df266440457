import HostProfile.Proofs.ComponentSet.Reachable
import HostProfile.Proofs.Packages.Reachable

/-!
# Merging twice

A definition that was merged is there, or was not needed: merging it again at once changes nothing.
-/

namespace HostProfile

/-- Whenever the action succeeds, doing it again at once answers that nothing was done, and leaves
what is seen of the state. -/
def Action.Settles {σ ν : Type} (act : Action σ Change) (view : σ → ν) (s : σ) : Prop :=
  ∀ (now later : Supply) (change : Change), (act s now).result = .ok change →
    (act (act s now).state later).result = .ok .unchanged ∧
      view (act (act s now).state later).state = view (act s now).state

variable {supply : Supply} {change : Change}

theorem ItemTable.settles_merge {T : Type} [Item T] [LawfulItem T] {t : ItemTable T}
    (wf : t.WellFormed) (h : Handle T) : (merge h).Settles find? t := by
  intro now later change ok
  have again := merge_merge wf ok later
  exact ⟨again, funext fun key => find?_merge_of_unchanged (wf.merge h now) again key⟩

namespace Component

variable {c : Component} {h : Handle Resource}

/-- A component is not empty when a resource was merged. -/
theorem isEmpty_merge (wf : c.resources.WellFormed)
    (ok : (merge h c supply).result = .ok change) :
    Slot.isEmpty (merge h c supply).state = false := by
  rw [← Bool.not_eq_true, isEmpty_iff (wf.merge h supply)]
  intro none_held
  have absent : (ItemTable.merge h c.resources supply).state.find?
      (c.resources.keyOf h.item) = none := none_held _
  rw [(wf.merge h supply).find?_eq, ItemTable.chainAt_merge wf, if_pos rfl,
    ItemTable.kept_eq_none] at absent
  have ok : (ItemTable.merge h c.resources supply).result = .ok change := ok
  rw [ItemTable.result_merge wf] at ok
  exact Chain.items_ne_nil_of_merge (fun _ => rfl) ok absent

end Component

namespace ComponentSet

variable {s : ComponentSet} {name : String} {h : Handle Resource}

theorem checkName_of_mergeResource (ok : (mergeResource name h s supply).result = .ok change) :
    Component.checkName name = .ok () := by
  cases valid : Component.checkName name with
  | error e =>
      rw [mergeResource_of_error valid] at ok
      exact absurd ok nofun
  | ok _ => rfl

/-- A merge into a set is a merge into the component, which the set keeps when it succeeds. -/
theorem mergeResource_of_eq_ok (wf : s.WellFormed)
    (ok : (mergeResource name h s supply).result = .ok change) :
    (Component.merge h (s.componentAt name) supply).result = .ok change ∧
      (mergeResource name h s supply).state.componentAt name =
        (Component.merge h (s.componentAt name) supply).state := by
  have valid := checkName_of_mergeResource ok
  rw [mergeResource_of_ok valid] at ok ⊢
  obtain ⟨result, -, -, find⟩ :=
    upsert_sound wf name (Component.merge h) (fun _ _ => rfl) supply
  rw [result] at ok
  refine ⟨ok, componentAt_of_some ?_⟩
  rw [find, if_pos rfl, KeyedTable.kept,
    Component.isEmpty_merge (wf.fits_componentAt name).wellFormed ok]
  rfl

theorem settles_mergeResource (wf : s.WellFormed) (name : String) (h : Handle Resource) :
    (mergeResource name h).Settles chain? s := by
  intro now later change ok
  have after := wf.mergeResource name h now
  obtain ⟨merged, held⟩ := mergeResource_of_eq_ok wf ok
  have again : (mergeResource name h (mergeResource name h s now).state later).result =
      .ok .unchanged := by
    rw [mergeResource_of_ok (checkName_of_mergeResource ok),
      (upsert_sound after name _ (fun _ _ => rfl) later).1, held]
    exact ItemTable.merge_merge (wf.fits_componentAt name).wellFormed merged later
  exact ⟨again, chain?_mergeResource_of_unchanged after again⟩

end ComponentSet

/-- Whatever a merge did, the same merge done again does nothing and leaves every chain handle by
handle: in a chain, a table, a set or a list of packages, and a set of components, whatever the
rules, the contexts and the directive of the definition. -/
theorem merge_settles {T : Type} [Item T] [LawfulItem T] :
    (∀ (contexts : Option ContextSet) (h : Handle T) (c : Chain T),
      (Chain.merge contexts h).Settles id c) ∧
    (∀ (h : Handle T) (t : ItemTable T), t.Reachable →
      (ItemTable.merge h).Settles ItemTable.find? t) ∧
    (∀ (h : Handle Package) (s : PackageSet), s.Reachable →
      (PackageSet.merge h).Settles (fun s => s.packages.find?) s) ∧
    (∀ (h : Handle Package) (l : PackageList),
      (PackageList.merge h).Settles PackageList.chain l) ∧
    (∀ (name : String) (h : Handle Resource) (s : ComponentSet), s.Reachable →
      (ComponentSet.mergeResource name h).Settles ComponentSet.chain? s) := by
  have chain {T : Type} [Item T] [LawfulItem T] (contexts : Option ContextSet) (h : Handle T)
      (c : Chain T) : (Chain.merge contexts h).Settles id c := by
    intro now later change ok
    have again := Chain.merge_merge ok later
    exact ⟨again, Chain.state_of_merge_eq_unchanged again⟩
  refine ⟨chain, fun h t reachable => ItemTable.settles_merge reachable.wellFormed h,
    fun h s reachable => ?_, fun h l => chain l.contexts h l.chain,
    fun name h s reachable => ComponentSet.settles_mergeResource reachable.wellFormed name h⟩
  exact ItemTable.settles_merge reachable.wellFormed h

theorem merge_settles_after_added :
    let vim : Handle Package := ⟨0, 1, { name := "vim", mark := some '+' }⟩
    let port : Handle Resource := ⟨2, 3, { name := "port", value := "22" }⟩
    let chain : Chain Package := { key := "vim", rules := .none, scope := .name }
    let set : PackageSet := .empty .standard .nameArch true
    let components : ComponentSet := { table := .withBuckets 1 }
    (LawfulItem Package ∧ set.packages.Reachable ∧ set.Reachable ∧ components.Reachable) ∧
      (Chain.merge none vim chain ⟨4⟩).result = .ok .added ∧
      (Chain.merge none vim (Chain.merge none vim chain ⟨4⟩).state ⟨4⟩).result = .ok .unchanged ∧
      (PackageSet.merge vim set ⟨4⟩).result = .ok .added ∧
      (PackageSet.merge vim (PackageSet.merge vim set ⟨4⟩).state ⟨4⟩).result = .ok .unchanged ∧
      (ComponentSet.mergeResource "ssh" port components ⟨4⟩).result = .ok .added ∧
      (ComponentSet.mergeResource "ssh" port
        (ComponentSet.mergeResource "ssh" port components ⟨4⟩).state ⟨4⟩).result =
          .ok .unchanged := by
  intro vim port chain set components
  obtain ⟨in_chain, -, in_set, -, in_components⟩ := merge_settles (T := Package)
  have reachable : set.Reachable := PackageSet.reachable_empty .standard .nameArch true
  have reachable' : components.Reachable := .empty .standard .nameArchContext none {} 1
  have added : (Chain.merge none vim chain ⟨4⟩).result = .ok .added := by decide
  have added' : (PackageSet.merge vim set ⟨4⟩).result = .ok .added := by
    decide +kernel
  have added'' : (ComponentSet.mergeResource "ssh" port components ⟨4⟩).result = .ok .added := by
    decide +kernel
  exact ⟨⟨inferInstance, reachable, reachable, reachable'⟩, added,
    (in_chain none vim chain _ _ _ added).1, added', (in_set vim set reachable _ _ _ added').1,
    added'', (in_components "ssh" port components reachable' _ _ _ added'').1⟩

end HostProfile
