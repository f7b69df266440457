import HostProfile.PackageSet
import HostProfile.Proofs.ComponentSet.Bulk
import HostProfile.Proofs.ItemTable.Chains
import HostProfile.Proofs.Site

/-!
# Tables and component sets as containers of places

The places of a table are its bucket keys, those of a component set are the bucket keys of its
components. All that is merged of a table or a set, in the order of its buckets, brings to each
place the chain that lies there.
-/

namespace HostProfile

/-! ## Tables -/

namespace ItemTable

variable {T : Type} [Item T] {t : ItemTable T}

/-- The chain under a bucket key, with the contexts of the table. -/
def siteAt (t : ItemTable T) (key : String) : Site T := ⟨t.contexts, t.chainAt key⟩

theorem filter_handles (wf : t.WellFormed) (key : String) :
    t.handles.filter (fun h => t.keyOf h.item = key) = (t.chainAt key).items := by
  have nothing (c : Chain T) (member : c ∈ t.table.slots) (other : c.key ≠ key) :
      c.items.filter (fun h => t.keyOf h.item = key) = [] :=
    List.filter_eq_nil_iff.mpr fun h held is =>
      other ((wf.keyOf_of_mem member held).symm.trans (of_decide_eq_true is))
  rw [handles, List.filter_flatMap, wf.flatMap_slots nothing rfl]
  exact List.filter_eq_self.mpr fun h held => decide_eq_true (wf.placed_chainAt held)

variable [LawfulItem T]

/-- Tables with one bucket scope. -/
def sited (T : Type) [Item T] [LawfulItem T] (bucket : KeyScope) :
    Sited (ItemTable T) (Handle T) String T where
  merge := merge
  sound t := t.WellFormed ∧ t.bucket = bucket
  handle h := h
  place h := bucket.key h.item
  site := siteAt
  keeps holds h supply := ⟨holds.1.merge h supply, holds.2⟩
  here {t} holds h supply := by
    obtain ⟨wf, rfl⟩ := holds
    refine ⟨result_merge wf h supply, supply_merge wf h supply, ?_⟩
    exact congrArg (Site.mk t.contexts) ((chainAt_merge wf h supply _).trans (if_pos rfl))
  elsewhere {t} holds h supply key other := by
    obtain ⟨wf, rfl⟩ := holds
    exact congrArg (Site.mk t.contexts) ((chainAt_merge wf h supply key).trans (if_neg other))

theorem share_handles (wf : t.WellFormed) (key : String) :
    (sited T t.bucket).share t.handles key = (t.chainAt key).items := by
  rw [← filter_handles wf key]
  exact List.map_id _

end ItemTable

theorem PackageSet.mergeSet_eq (o : PackageSet) :
    mergeSet o = onPackages (Action.each ItemTable.merge o.packages.handles) := by
  rw [mergeSet, ItemTable.mergeTable_eq]

/-! ## Component sets -/

namespace ComponentSet

variable {s : ComponentSet} {name : String} {h : Handle Resource} {supply : Supply}

/-- The chain of a resource name in a component, with the contexts of the component. -/
def siteAt (s : ComponentSet) (place : String × String) : Site Resource :=
  (s.componentAt place.1).resources.siteAt place.2

theorem componentAt_upsert_of_ne (wf : s.WellFormed) {k : String} (other : k ≠ name) :
    (upsert name (Component.merge h) s supply).state.componentAt k = s.componentAt k := by
  obtain ⟨-, -, -, find⟩ := upsert_sound wf name (Component.merge h) (fun _ _ => rfl) supply
  rw [componentAt, find, if_neg other]
  rfl

/-- A component that was there is there after the merge of a resource. -/
theorem isEmpty_merge_componentAt (wf : s.WellFormed) {c : Component}
    (found : s.find? name = some c) (h : Handle Resource) (supply : Supply) :
    Slot.isEmpty (Component.merge h (s.componentAt name) supply).state = false := by
  have inside := (wf.fits_componentAt name).wellFormed
  cases result : (Component.merge h (s.componentAt name) supply).result with
  | ok change => exact Component.isEmpty_merge inside result
  | error e =>
      rw [(Component.Indistinguishable.of_merge_eq_error inside result).isEmpty_eq,
        componentAt_of_some found]
      exact (wf.stored found).nonempty

/-- The component into which a resource is merged has the chains that it has on its own behind the
merge, also where it is not stored because it would be empty. -/
theorem siteAt_componentAt_upsert (wf : s.WellFormed) (name : String) (h : Handle Resource)
    (supply : Supply) (key : String) :
    ((upsert name (Component.merge h) s supply).state.componentAt name).resources.siteAt key =
      (Component.merge h (s.componentAt name) supply).state.resources.siteAt key := by
  obtain ⟨-, -, -, find⟩ := upsert_sound wf name (Component.merge h) (fun _ _ => rfl) supply
  have stored := find name
  rw [if_pos rfl] at stored
  cases empty : Slot.isEmpty (Component.merge h (s.componentAt name) supply).state with
  | false =>
      rw [KeyedTable.kept_of_nonempty empty] at stored
      rw [componentAt_of_some stored]
  | true =>
      cases found : s.find? name with
      | some c =>
          rw [isEmpty_merge_componentAt wf found] at empty
          exact absurd empty nofun
      | none =>
          have inside := (wf.fits_componentAt name).wellFormed
          have nowhere := (Component.isEmpty_iff (inside.merge h supply)).mp empty key
          rw [KeyedTable.kept_of_isEmpty empty] at stored
          have created := componentAt_of_none found
          rw [componentAt_of_none stored, ItemTable.siteAt, ItemTable.siteAt,
            ItemTable.chainAt_of_none (find?_emptyComponent _ name key),
            ItemTable.chainAt_of_none nowhere, created]
          rfl

/-- A component set: every resource has its place in the component of the given name. -/
def sited : Sited ComponentSet (String × Handle Resource) (String × String) Resource where
  merge := mergeInto
  sound := WellFormed
  handle v := v.2
  place v := (v.1, KeyScope.name.key v.2.item)
  site := siteAt
  keeps wf v supply :=
    wf.upsert (fun _ _ => rfl) (fun _ supply fits => fits.merge v.2 supply) supply
  here {s} wf v supply := by
    obtain ⟨name, h⟩ := v
    obtain ⟨result, left, -, -⟩ :=
      upsert_sound wf name (Component.merge h) (fun _ _ => rfl) supply
    have fits := wf.fits_componentAt name
    have inside := (ItemTable.sited Resource .name).here ⟨fits.wellFormed, fits.bucket⟩ h supply
    refine ⟨result.trans inside.result, left.trans inside.supply, ?_⟩
    exact (siteAt_componentAt_upsert wf name h supply _).trans inside.state
  elsewhere {s} wf v supply place other := by
    obtain ⟨name, h⟩ := v
    obtain ⟨k, key⟩ := place
    by_cases same : k = name
    · subst same
      have fits := wf.fits_componentAt k
      refine (siteAt_componentAt_upsert wf k h supply key).trans ?_
      refine (ItemTable.sited Resource .name).elsewhere ⟨fits.wellFormed, fits.bucket⟩ h supply ?_
      rintro rfl
      exact other rfl
    · exact congrArg (fun c : Component => c.resources.siteAt key)
        (componentAt_upsert_of_ne wf same)

/-- All that is in a set brings to each place the chain that lies there. -/
theorem share_visible (wf : s.WellFormed) (place : String × String) :
    sited.share (s.visible .all) place =
      ((s.componentAt place.1).resources.chainAt place.2).items := by
  obtain ⟨name, key⟩ := place
  have shares (c : Component) : ((c.resources.handles.map (c.name, ·)).filter
        fun v => (v.1, KeyScope.name.key v.2.item) = (name, key)).map Prod.snd =
      c.resources.handles.filter fun h => c.name = name ∧ KeyScope.name.key h.item = key := by
    rw [List.filter_map, List.map_map]
    simp only [Function.comp_def, Prod.mk.injEq, List.map_id']
  have share : sited.share (s.visible .all) (name, key) = s.table.slots.flatMap fun c =>
      c.resources.handles.filter fun h => c.name = name ∧ KeyScope.name.key h.item = key := by
    rw [Sited.share, visible_all, List.filter_flatMap, List.map_flatMap]
    exact congrArg (s.table.slots.flatMap ·) (funext shares)
  have elsewhere (c : Component) (member : c ∈ s.table.slots) (other : c.name ≠ name) :
      (c.resources.handles.filter fun h => c.name = name ∧ KeyScope.name.key h.item = key) = [] :=
    List.filter_eq_nil_iff.mpr fun h _ is => other (of_decide_eq_true is).1
  rw [share, wf.sound.flatMap_of_key elsewhere]
  cases found : s.find? name with
  | none =>
      rw [componentAt_of_none found, ItemTable.chainAt_of_none (find?_emptyComponent s name key)]
      rw [ComponentSet.find?] at found
      rw [found]
      rfl
  | some c =>
      have fits := (wf.stored found).fits
      have named := name_of_find? found
      rw [componentAt_of_some found, ← ItemTable.filter_handles fits.wellFormed key]
      rw [ComponentSet.find?] at found
      rw [found, Option.map_some, Option.getD_some]
      simp only [named, true_and, ItemTable.keyOf, fits.bucket]

end ComponentSet

end HostProfile
