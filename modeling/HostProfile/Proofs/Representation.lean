import HostProfile.Proofs.ComponentSet.Bulk
import HostProfile.Proofs.Packages.Reachable
import HostProfile.Proofs.Profile.Contexts
import Mathlib.Data.List.Dedup

/-!
# What containers hold

A table shows its definitions, and the keys and chains under which it keeps them follow from these:
there is one chain for each bucket key that a definition has, and none else. The same is true of a
set and its components. As long as no evaluation fails, the components have the contexts of the set
as well.
-/

namespace HostProfile

/-- A table that has the keys of these holders, each once, counts the keys and knows them. -/
theorem KeyedTable.Sound.size_and_contains {S α : Type} [Slot S] {t : KeyedTable S}
    (sound : t.Sound) {holders : List α} {keyOf : α → String}
    (keys : ∀ key, (∃ slot ∈ t.slots, Slot.key slot = key) ↔ ∃ x ∈ holders, keyOf x = key) :
    t.size = (holders.map keyOf).dedup.length ∧
      ∀ key, t.contains key = true ↔ ∃ x ∈ holders, keyOf x = key := by
  constructor
  · have perm : (t.slots.map Slot.key).Perm (holders.map keyOf).dedup := by
      rw [List.perm_ext_iff_of_nodup sound.nodup_keys (List.nodup_dedup _)]
      intro key
      rw [List.mem_dedup, List.mem_map, List.mem_map]
      exact keys key
    rw [size_eq_length_slots, ← perm.length_eq, List.length_map]
  · intro key
    rw [← keys, contains, Option.isSome_iff_exists]
    exact exists_congr fun slot => sound.find?_eq_some_iff

namespace ItemTable

variable {T : Type} [Item T]

/-- The chains of a table are those of the definitions in it: none is empty, each has its own key,
which is the bucket key of all that lies in it, and the rules and the scope of the table. -/
structure Represented (t : ItemTable T) : Prop where
  nonempty : ∀ c ∈ t.table.slots, c.items ≠ []
  placed : ∀ c ∈ t.table.slots, ∀ h ∈ c.items, t.keyOf h.item = c.key
  distinct : (t.table.slots.map Chain.key).Nodup
  rules : ∀ c ∈ t.table.slots, c.rules = t.rules
  scope : ∀ c ∈ t.table.slots, c.scope = t.scope
  size : t.size = (t.handles.map (t.keyOf ·.item)).dedup.length
  contains : ∀ key, t.contains key = true ↔ ∃ h ∈ t.handles, t.keyOf h.item = key

theorem WellFormed.represented {t : ItemTable T} (wf : t.WellFormed) : t.Represented := by
  have stored {c : Chain T} (member : c ∈ t.table.slots) : t.Stored c.key c :=
    wf.stored (wf.find?_key member)
  have keys (key : String) : (∃ c ∈ t.table.slots, c.key = key) ↔
      ∃ h ∈ t.handles, t.keyOf h.item = key := by
    constructor
    · rintro ⟨c, member, rfl⟩
      obtain ⟨h, held⟩ := List.exists_mem_of_ne_nil _ (stored member).nonempty
      exact ⟨h, List.mem_flatMap_of_mem member held, (stored member).placed h held⟩
    · rintro ⟨h, held, rfl⟩
      obtain ⟨c, member, inside⟩ := List.mem_flatMap.mp held
      exact ⟨c, member, ((stored member).placed h inside).symm⟩
  obtain ⟨size, contains⟩ := wf.sound.size_and_contains keys
  exact {
    nonempty c member := (stored member).nonempty
    placed c member := (stored member).placed
    distinct := wf.sound.nodup_keys
    rules c member := (stored member).rules
    scope c member := (stored member).scope
    size := size
    contains := contains }

end ItemTable

namespace ComponentSet

/-- The components of a set are those of the resources in it: none is empty, each has its own name
and the settings of the set, and its resources lie in it as they should. -/
structure Represented (s : ComponentSet) : Prop where
  nonempty : ∀ c ∈ s.table.slots, c.resources.handles ≠ []
  distinct : (s.table.slots.map Component.name).Nodup
  bucket : ∀ c ∈ s.table.slots, c.resources.bucket = .name
  rules : ∀ c ∈ s.table.slots, c.resources.rules = s.rules
  scope : ∀ c ∈ s.table.slots, c.resources.scope = s.scope
  contexts : ∀ c ∈ s.table.slots, c.resources.contexts = s.contexts
  resources : ∀ c ∈ s.table.slots, c.resources.Represented
  size : s.size = ((s.visible .all).map Prod.fst).dedup.length
  contains : ∀ name, s.contains name = true ↔ ∃ entry ∈ s.visible .all, entry.1 = name

/-- The sets that come from empty ones as long as no evaluation fails. A merge may fail. -/
inductive Maintained : ComponentSet → Prop where
  | empty (rules : MergeRules) (scope : KeyScope) (contexts : Option ContextSet)
      (order : OutputOrder) (n : Nat) :
      Maintained { table := .withBuckets n, rules, scope, contexts, order }
  | edit {s s' : ComponentSet} : Maintained s → s.Edit s' → Maintained s'
  | setRules {s : ComponentSet} (rules : MergeRules) : Maintained s → Maintained (s.setRules rules)
  | setContexts {s : ComponentSet} (contexts : Option ContextSet) :
      Maintained s → Maintained (s.setContexts contexts)
  | setOrder {s : ComponentSet} (order : OutputOrder) :
      Maintained s → Maintained (s.setOrder order)
  | reevaluate {s : ComponentSet} {n : Nat} (set : ContextSet) (supply : Supply) : Maintained s →
      (reevaluate set s supply).result = .ok n → Maintained (reevaluate set s supply).state

/-- The components of the set are evaluated in its contexts. -/
structure Attuned (s : ComponentSet) : Prop where
  wellFormed : s.WellFormed
  contexts : ∀ {name : String} {c : Component}, s.find? name = some c →
    c.resources.contexts = s.contexts

namespace Attuned

variable {s : ComponentSet}

theorem edit {s' : ComponentSet} (attuned : s.Attuned) (edit : s.Edit s') : s'.Attuned := by
  let P (t : ItemTable Resource) : Prop := t.contexts = s.contexts
  have invariant : ItemTable.Invariant P := ⟨fun same _ _ => same, fun same => same⟩
  have before : s.Every P s.rules s.scope s.contexts :=
    ⟨attuned.wellFormed, rfl, rfl, rfl, attuned.contexts⟩
  have after := edit.every invariant rfl before
  exact ⟨after.wellFormed, fun found => (after.resources found).trans after.contexts.symm⟩

theorem setRules (attuned : s.Attuned) (rules : MergeRules) : (s.setRules rules).Attuned where
  wellFormed := attuned.wellFormed.setRules rules
  contexts found := by
    rw [find?_setRules] at found
    obtain ⟨c, before, rfl⟩ := Option.map_eq_some_iff.mp found
    show c.resources.contexts = s.contexts
    exact attuned.contexts before

theorem setContexts (attuned : s.Attuned) (contexts : Option ContextSet) :
    (s.setContexts contexts).Attuned where
  wellFormed := attuned.wellFormed.setContexts contexts
  contexts found := by
    rw [find?_setContexts] at found
    obtain ⟨c, -, rfl⟩ := Option.map_eq_some_iff.mp found
    rfl

theorem reevaluate (attuned : s.Attuned) {set : ContextSet} {supply : Supply} {n : Nat}
    (ok : (ComponentSet.reevaluate set s supply).result = .ok n) :
    (ComponentSet.reevaluate set s supply).state.Attuned where
  wellFormed := attuned.wellFormed.reevaluate set supply
  contexts {name c'} found := by
    obtain ⟨adopted, each⟩ := reevaluate_of_ok ok
    have rel := each name
    rw [found] at rel
    obtain ⟨c, -, left, m, evaluated, rfl⟩ := KeyedTable.exists_of_rel_some rel
    rw [adopted]
    exact (ItemTable.reevaluate_of_ok evaluated).1

theorem represented (attuned : s.Attuned) : s.Represented := by
  have wf := attuned.wellFormed
  have found {c : Component} (member : c ∈ s.table.slots) : s.find? c.name = some c :=
    wf.sound.find?_eq_some_iff.mpr ⟨member, rfl⟩
  have fits {c : Component} (member : c ∈ s.table.slots) := (wf.stored (found member)).fits
  have nonempty {c : Component} (member : c ∈ s.table.slots) : c.resources.handles ≠ [] := by
    intro none_held
    have inside := (fits member).wellFormed.represented
    have occupied := (wf.stored (found member)).nonempty
    have empty : c.resources.size = 0 := by rw [inside.size, none_held]; rfl
    simp [Slot.isEmpty, empty] at occupied
  have names (name : String) : (∃ c ∈ s.table.slots, c.name = name) ↔
      ∃ entry ∈ s.visible .all, entry.1 = name := by
    rw [visible_all]
    constructor
    · rintro ⟨c, member, rfl⟩
      obtain ⟨h, held⟩ := List.exists_mem_of_ne_nil _ (nonempty member)
      exact ⟨(c.name, h), List.mem_flatMap_of_mem member (List.mem_map_of_mem held), rfl⟩
    · rintro ⟨entry, shown, rfl⟩
      obtain ⟨c, member, inside⟩ := List.mem_flatMap.mp shown
      obtain ⟨h, -, rfl⟩ := List.mem_map.mp inside
      exact ⟨c, member, rfl⟩
  obtain ⟨size, contains⟩ := wf.sound.size_and_contains names
  exact {
    nonempty c member := nonempty member
    distinct := wf.sound.nodup_keys
    bucket c member := (fits member).bucket
    rules c member := (fits member).rules
    scope c member := (fits member).scope
    contexts c member := attuned.contexts (found member)
    resources c member := (fits member).wellFormed.represented
    size := size
    contains := contains }

end Attuned

theorem Maintained.attuned {s : ComponentSet} (maintained : s.Maintained) : s.Attuned := by
  induction maintained with
  | empty rules scope contexts order n =>
      exact ⟨.empty rules scope contexts order n, fun found =>
        absurd found (by simp [find?, KeyedTable.Sound.find?_withBuckets])⟩
  | edit _ edit attuned => exact attuned.edit edit
  | setRules rules _ attuned => exact attuned.setRules rules
  | setContexts contexts _ attuned => exact attuned.setContexts contexts
  | setOrder order _ attuned => exact ⟨attuned.wellFormed.setOrder order, attuned.contexts⟩
  | reevaluate set supply _ ok attuned => exact attuned.reevaluate ok

end ComponentSet

/-- Whatever was done to a table, a set of packages or a set of components, their chains and
components are those of the definitions that they hold. Merging a chain, a table or a set is a run
of merges, and these may fail; a set of components has to see its evaluations succeed. -/
theorem containers_represented {T : Type} [Item T] [LawfulItem T] :
    (∀ t : ItemTable T, t.Reachable → t.Represented) ∧
    (∀ s : PackageSet, s.Reachable → s.packages.Represented) ∧
    (∀ s : ComponentSet, s.Maintained → s.Represented) :=
  ⟨fun _ reachable => reachable.wellFormed.represented,
    fun _ reachable => reachable.wellFormed.represented,
    fun _ maintained => maintained.attuned.represented⟩

/-- Packages for two architectures lie under one key, a third is refused, and the key is there once;
a component is there as long as it has resources. -/
theorem containers_represented_of_refused :
    let vim (cell : Cell) (arch version : String) : Handle Package :=
      ⟨cell, cell + 1, { name := "vim", arch := some arch, version }⟩
    let port : Handle Resource := ⟨0, 1, { name := "port", value := "22" }⟩
    let merged := [vim 0 "x86_64" "9.0", vim 2 "aarch64" "9.0", vim 4 "x86_64" "9.1"].foldl
      (fun (s : PackageSet) h => (PackageSet.merge h s ⟨6⟩).state) (.empty .standard)
    let set : ComponentSet := (ComponentSet.mergeResource "ssh" port
      { table := .withBuckets 1, contexts := some {} } ⟨2⟩).state
    (merged.packages.Reachable ∧ merged.Reachable ∧ set.Maintained) ∧
      merged.packages.handles.map (·.cell) = [0, 2] ∧ merged.packages.size = 1 ∧
      merged.packages.Represented ∧ set.contains "ssh" = true ∧ set.Represented := by
  intro vim port merged set
  have reachable : merged.Reachable :=
    (((PackageSet.reachable_empty .standard .nameArch false).merge _).merge _).merge _
  have maintained : set.Maintained := .edit (.empty .standard .nameArchContext (some {}) {} 1)
    (.mergeResource "ssh" port ⟨2⟩)
  have stored : merged.packages.handles.map (·.cell) = [0, 2] := by decide +kernel
  have contained : set.contains "ssh" = true := by decide +kernel
  obtain ⟨-, packages, components⟩ := containers_represented (T := Package)
  have represented := packages merged reachable
  refine ⟨⟨reachable, reachable, maintained⟩, stored, ?_, represented, contained,
    components set maintained⟩
  decide +kernel

end HostProfile
