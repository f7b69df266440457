import HostProfile.Profile
import HostProfile.Proofs.Packages.Reachable
import HostProfile.Proofs.Places

/-!
# Layers with the same contents

A layer is merged in the order of its buckets, which tells of its history and not of what it holds.
Two layers that hold the same are merged alike, whatever their buckets, since each chain of the
target meets the same chain of either layer.
-/

namespace HostProfile

/-! ## Chains up to new cells -/

/-- The chains have the same handles in the same order, up to the new cells of copies. -/
structure Chain.SameUpTo {T : Type} (base : Cell) (c c' : Chain T) : Prop where
  key : c.key = c'.key
  rules : c.rules = c'.rules
  scope : c.scope = c'.scope
  items : List.Forall₂ (Handle.SameUpTo base) c.items c'.items

variable {T : Type} [Item T] {base : Cell}

omit [Item T] in
theorem Chain.sameUpTo_of_relabel {c c' : Chain T}
    (same : c.relabel (Handle.blur base) = c'.relabel (Handle.blur base)) :
    Chain.SameUpTo base c c' := by
  obtain ⟨key, items, rules, scope⟩ := Chain.mk.inj same
  exact ⟨key, rules, scope, forall₂_of_map_eq items fun x _ y _ => Handle.sameUpTo_of_blur⟩

/-- Tables whose places are alike find the same chains up to new cells. -/
theorem ItemTable.rel_find? {t t' : ItemTable T} (wf : t.WellFormed) (wf' : t'.WellFormed)
    {key : String} (alike : (t.siteAt key).Alike base (t'.siteAt key)) :
    Option.Rel (Chain.SameUpTo base) (t.find? key) (t'.find? key) := by
  have same : Chain.SameUpTo base (t.chainAt key) (t'.chainAt key) :=
    Chain.sameUpTo_of_relabel alike.chain
  rw [wf.find?_eq, wf'.find?_eq]
  by_cases empty : (t.chainAt key).items = []
  · have items := same.items
    rw [empty, List.forall₂_nil_left_iff] at items
    rw [kept_eq_none.mpr empty, kept_eq_none.mpr items]
    exact .none
  · have nonempty : (t'.chainAt key).items ≠ [] := fun nil => empty <| by
      have items := same.items
      rw [nil, List.forall₂_nil_right_iff] at items
      exact items
    rw [kept_eq_some.mpr ⟨empty, rfl⟩, kept_eq_some.mpr ⟨nonempty, rfl⟩]
    exact .some same

/-! ## The same contents -/

/-- The sets hold the same packages under each key, in the same order. -/
def PackageSet.SameContents (o o' : PackageSet) : Prop :=
  ∀ key, (o.packages.find? key).map Chain.items = (o'.packages.find? key).map Chain.items

/-- The sets hold the same resources under each name of each component, in the same order. -/
def ComponentSet.SameContents (o o' : ComponentSet) : Prop :=
  ∀ name key, (o.chain? name key).map Chain.items = (o'.chain? name key).map Chain.items

namespace PackageSet

variable {s o o' : PackageSet} {u w : Supply}

theorem share_eq_of_sameContents (ho : o.Reachable) (ho' : o'.Reachable)
    (bucket : o.packages.bucket = s.packages.bucket)
    (bucket' : o'.packages.bucket = s.packages.bucket) (same : o.SameContents o') :
    (ItemTable.sited Package s.packages.bucket).share o.packages.handles =
      (ItemTable.sited Package s.packages.bucket).share o'.packages.handles := by
  funext key
  have left := ItemTable.share_handles ho.wellFormed key
  have right := ItemTable.share_handles ho'.wellFormed key
  rw [bucket, ItemTable.items_chainAt] at left
  rw [bucket', ItemTable.items_chainAt] at right
  rw [left, right, same key]

/-- Sets with the same contents are merged alike. -/
theorem mergeSet_of_sameContents (reachable : s.Reachable) (ho : o.Reachable) (ho' : o'.Reachable)
    (bucket : o.packages.bucket = s.packages.bucket)
    (bucket' : o'.packages.bucket = s.packages.bucket) (same : o.SameContents o')
    (old : ∀ h ∈ o.packages.handles, h.cell < base) (hu : base ≤ u.next) (hw : base ≤ w.next)
    (change : Change) :
    ((mergeSet o s u).result = .ok change ↔ (mergeSet o' s w).result = .ok change) ∧
      ((mergeSet o s u).result = .ok change → ∀ key,
        Option.Rel (Chain.SameUpTo base) ((mergeSet o s u).state.packages.find? key)
          ((mergeSet o' s w).state.packages.find? key)) := by
  have shares := share_eq_of_sameContents ho ho' bucket bucket' same
  have after : (mergeSet o s u).state.packages.WellFormed := (reachable.mergeSet o).wellFormed
  have after' : (mergeSet o' s w).state.packages.WellFormed := (reachable.mergeSet o').wellFormed
  rw [mergeSet_eq] at after after'
  rw [mergeSet_eq, mergeSet_eq]
  refine ⟨Sited.each_eq_ok_iff shares old ⟨reachable.wellFormed, rfl⟩ hu hw, fun ok key => ?_⟩
  obtain ⟨-, sites⟩ := Sited.each_of_share_eq shares old ⟨reachable.wellFormed, rfl⟩ hu hw ok
  exact ItemTable.rel_find? after after' (sites key)

end PackageSet

namespace ComponentSet

variable {s s' o o' : ComponentSet} {u w : Supply}

theorem rel_chain? (wf : s.WellFormed) (wf' : s'.WellFormed) {name key : String}
    (alike : (s.siteAt (name, key)).Alike base (s'.siteAt (name, key))) :
    Option.Rel (Chain.SameUpTo base) (s.chain? name key) (s'.chain? name key) := by
  rw [chain?_eq, chain?_eq]
  exact ItemTable.rel_find? (wf.fits_componentAt name).wellFormed
    (wf'.fits_componentAt name).wellFormed alike

/-- A set has the components of which it finds a chain. -/
theorem find?_eq_none_iff (wf : s.WellFormed) (name : String) :
    s.find? name = none ↔ ∀ key, s.chain? name key = none := by
  simp only [chain?_eq, ← Component.isEmpty_iff (wf.fits_componentAt name).wellFormed, wf.find?_eq]
  cases empty : Slot.isEmpty (s.componentAt name) with
  | true => simp [KeyedTable.kept_of_isEmpty empty]
  | false => simp [KeyedTable.kept_of_nonempty empty]

theorem share_eq_of_sameContents (ho : o.WellFormed) (ho' : o'.WellFormed)
    (same : o.SameContents o') : sited.share (o.visible .all) = sited.share (o'.visible .all) := by
  funext place
  have chains := same place.1 place.2
  rw [chain?_eq, chain?_eq] at chains
  rw [share_visible ho, share_visible ho', ItemTable.items_chainAt, ItemTable.items_chainAt, chains]

/-- Sets with the same contents are merged alike. -/
theorem mergeSet_of_sameContents (wf : s.WellFormed) (ho : o.WellFormed) (ho' : o'.WellFormed)
    (same : o.SameContents o') (old : ∀ v ∈ o.visible .all, v.2.cell < base)
    (hu : base ≤ u.next) (hw : base ≤ w.next) (change : Change) :
    ((mergeSet o s u).result = .ok change ↔ (mergeSet o' s w).result = .ok change) ∧
      ((mergeSet o s u).result = .ok change → ∀ name key,
        Option.Rel (Chain.SameUpTo base) ((mergeSet o s u).state.chain? name key)
          ((mergeSet o' s w).state.chain? name key)) := by
  have shares := share_eq_of_sameContents ho ho' same
  have singly := each_mergeInto_alike wf o u
  have singly' := each_mergeInto_alike wf o' w
  rw [← singly.result, ← singly'.result]
  refine ⟨Sited.each_eq_ok_iff shares old wf hu hw, fun ok name key => ?_⟩
  obtain ⟨-, sites⟩ := Sited.each_of_share_eq shares old wf hu hw ok
  refine rel_chain? singly.state.right singly'.state.right ?_
  unfold siteAt
  rw [singly.state.componentAt, singly'.state.componentAt]
  exact sites (name, key)

/-- Sets of which alike chains are found have the same components. -/
theorem isNone_find?_of_rel (wf : s.WellFormed) (wf' : s'.WellFormed)
    (related : ∀ name key, Option.Rel (Chain.SameUpTo base) (s.chain? name key)
      (s'.chain? name key)) (name : String) :
    (s'.find? name).isNone = (s.find? name).isNone := by
  rw [Bool.eq_iff_iff, Option.isNone_iff_eq_none, Option.isNone_iff_eq_none,
    find?_eq_none_iff wf', find?_eq_none_iff wf]
  refine forall_congr' fun key => ?_
  rw [← Option.isNone_iff_eq_none, ← Option.isNone_iff_eq_none,
    KeyedTable.isNone_of_rel (related name key)]

end ComponentSet

/-- What a layer holds decides what merging it does: of two sets of packages with the bucket scope
of the target, or two sets of components, that hold the same under each key, either both are merged
or none, with the same answer, and the targets have the same chains behind it, up to the new cells
of the copies that were made. How many buckets the layers have and how they came by their contents
does not matter. -/
theorem layer_contents_decide :
    (∀ (s o o' : PackageSet) (base : Cell) (u w : Supply), s.Reachable → o.Reachable →
      o'.Reachable → o.packages.bucket = s.packages.bucket →
      o'.packages.bucket = s.packages.bucket → o.SameContents o' →
      (∀ h ∈ o.packages.handles, h.cell < base) → base ≤ u.next → base ≤ w.next →
      ∀ change, ((PackageSet.mergeSet o s u).result = .ok change ↔
          (PackageSet.mergeSet o' s w).result = .ok change) ∧
        ((PackageSet.mergeSet o s u).result = .ok change → ∀ key,
          Option.Rel (Chain.SameUpTo base) ((PackageSet.mergeSet o s u).state.packages.find? key)
            ((PackageSet.mergeSet o' s w).state.packages.find? key))) ∧
    (∀ (s o o' : ComponentSet) (base : Cell) (u w : Supply), s.Reachable → o.Reachable →
      o'.Reachable → o.SameContents o' →
      (∀ v ∈ o.visible .all, v.2.cell < base) → base ≤ u.next → base ≤ w.next →
      ∀ change, ((ComponentSet.mergeSet o s u).result = .ok change ↔
          (ComponentSet.mergeSet o' s w).result = .ok change) ∧
        ((ComponentSet.mergeSet o s u).result = .ok change → ∀ name,
          ((ComponentSet.mergeSet o' s w).state.find? name).isNone =
              ((ComponentSet.mergeSet o s u).state.find? name).isNone ∧
            ∀ key, Option.Rel (Chain.SameUpTo base)
              ((ComponentSet.mergeSet o s u).state.chain? name key)
              ((ComponentSet.mergeSet o' s w).state.chain? name key))) := by
  constructor
  · intro s o o' base u w reachable ho ho' bucket bucket' same old hu hw change
    exact PackageSet.mergeSet_of_sameContents reachable ho ho' bucket bucket' same old hu hw change
  · intro s o o' base u w reachable ho ho' same old hu hw change
    have merged := ComponentSet.mergeSet_of_sameContents reachable.wellFormed ho.wellFormed
      ho'.wellFormed same old hu hw change
    refine ⟨merged.1, fun ok name => ⟨?_, merged.2 ok name⟩⟩
    exact ComponentSet.isNone_find?_of_rel (reachable.mergeSet o u).wellFormed
      (reachable.mergeSet o' w).wellFormed (merged.2 ok) name

/-- Two packages that came in the opposite order, into a table that had to grow for them, and a set
that has failed to take in a third resource: neither merges differently for it. -/
theorem layer_contents_decide_of_histories :
    let vim : Handle Package := ⟨0, 1, { name := "vim", context := "laptop" }⟩
    let nano : Handle Package := ⟨2, 3, { name := "nano" }⟩
    let port : Handle Resource := ⟨4, 5, { name := "port", value := "22" }⟩
    let torn : Handle Resource := ⟨6, 7, { name := "server", context := "$" }⟩
    let narrow : PackageSet := ⟨{ PackageSet.empty.packages with table := .withBuckets 1 }⟩
    let o := (PackageSet.merge nano (PackageSet.merge vim .empty ⟨8⟩).state ⟨8⟩).state
    let o' := (PackageSet.merge vim (PackageSet.merge nano narrow ⟨8⟩).state ⟨8⟩).state
    let s := PackageSet.empty
    let r := (ComponentSet.mergeResource "ssh" port { contexts := some ∅ } ⟨8⟩).state
    let r' := (ComponentSet.mergeResource "ntp" torn r ⟨8⟩).state
    o.packages.table.bucketCount ≠ o'.packages.table.bucketCount ∧
      (PackageSet.mergeSet o s ⟨8⟩).result = .ok .modified ∧
      (∀ change, ((PackageSet.mergeSet o s ⟨8⟩).result = .ok change ↔
          (PackageSet.mergeSet o' s ⟨9⟩).result = .ok change) ∧
        ((PackageSet.mergeSet o s ⟨8⟩).result = .ok change → ∀ key,
          Option.Rel (Chain.SameUpTo 8) ((PackageSet.mergeSet o s ⟨8⟩).state.packages.find? key)
            ((PackageSet.mergeSet o' s ⟨9⟩).state.packages.find? key))) ∧
      (ComponentSet.mergeResource "ntp" torn r ⟨8⟩).result =
        .error (.item (.contextSyntax "$" (.unexpectedChar '$' 0))) ∧
      ∀ change, (ComponentSet.mergeSet r {} ⟨8⟩).result = .ok change ↔
        (ComponentSet.mergeSet r' {} ⟨8⟩).result = .ok change := by
  intro vim nano port torn narrow o o' s r r'
  obtain ⟨packages, components⟩ := layer_contents_decide
  have reachable : s.Reachable := PackageSet.reachable_empty ..
  have ho : o.Reachable := (reachable.merge vim).merge nano
  have empty : narrow.Reachable := ItemTable.Reachable.empty _ _ _ _ _ 1
  have ho' : o'.Reachable := (empty.merge nano).merge vim
  have found : o'.packages.find? = o.packages.find? :=
    ho.wellFormed.sound.find?_eq_of_perm ho'.wellFormed.sound (by decide +kernel)
  have same : o.SameContents o' := fun key => congrArg (Option.map Chain.items) (by rw [found])
  have fresh : ComponentSet.Assembled {} := .empty .standard .nameArchContext none {} _
  have start : ComponentSet.Assembled { contexts := some ∅ } :=
    .empty .standard .nameArchContext (some ∅) {} _
  have assembled : r.Assembled := start.mergeResource "ssh" port ⟨8⟩
  have refused : (ComponentSet.mergeResource "ntp" torn r ⟨8⟩).result =
      .error (.item (.contextSyntax "$" (.unexpectedChar '$' 0))) := by decide +kernel
  have alike := ComponentSet.Indistinguishable.of_mergeResource_eq_error
    assembled.reachable.wellFormed assembled.named refused
  have same' : r.SameContents r' := fun name key => congrArg (Option.map Chain.items)
    (congrFun (congrFun alike.chain? name) key).symm
  refine ⟨by decide +kernel, by decide +kernel, ?_, refused, fun change => ?_⟩
  · exact packages s o o' 8 ⟨8⟩ ⟨9⟩ reachable ho ho' rfl rfl same (by decide +kernel) (by decide)
      (by decide)
  · exact (components {} r r' 8 ⟨8⟩ ⟨8⟩ fresh.reachable assembled.reachable
      (assembled.mergeResource "ntp" torn ⟨8⟩).reachable same' (by decide +kernel) (by decide)
      (by decide) change).1

end HostProfile
