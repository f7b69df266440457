import HostProfile.Profile
import HostProfile.Proofs.Packages.Reachable
import HostProfile.Proofs.Places

/-!
# Layers merged again

A layer whose definitions have different keys is merged once and for all. Each of its definitions is
found again, or kept out again, whatever the others have done meanwhile, so that merging the layer a
second time at once changes nothing.
-/

namespace HostProfile

/-- The definitions that are merged can be told by their cells: the cell of each holds nothing else,
among them and among those that are held, and no new copy gets it. -/
structure Discerned {T : Type} (held merged : List (Handle T)) (supply : Supply) : Prop where
  old : ∀ h ∈ merged, h.cell < supply.next
  one : ∀ h ∈ merged, ∀ x ∈ held ++ merged, x.cell = h.cell → x = h

theorem Discerned.mono {T : Type} {held merged : List (Handle T)} {u w : Supply}
    (discerned : Discerned held merged u) (le : u.next ≤ w.next) : Discerned held merged w :=
  ⟨fun h member => Nat.lt_of_lt_of_le (discerned.old h member) le, discerned.one⟩

/-! ## Tables -/

namespace ItemTable

variable {T : Type} [Item T] {t t' : ItemTable T} {hs : List (Handle T)} {supply : Supply}
  {change : Change}

theorem find?_eq_of_siteAt (wf : t.WellFormed) (wf' : t'.WellFormed) {key : String}
    (same : t'.siteAt key = t.siteAt key) : t'.find? key = t.find? key := by
  rw [wf'.find?_eq, wf.find?_eq]
  exact congrArg (fun site : Site T => KeyedTable.kept site.chain) same

variable [LawfulItem T]

theorem ready (wf : t.WellFormed) (discerned : Discerned t.handles hs supply) :
    (sited T t.bucket).Ready t.scope hs t supply where
  sound := ⟨wf, rfl⟩
  old := discerned.old
  one x hx y hy same := discerned.one y hy x (List.mem_append_right _ hx) same
  scope key := wf.scope_chainAt key
  guarded h member x held same := by
    obtain rfl :=
      discerned.one h member x (List.mem_append_left _ (wf.mem_handles_of_mem held)) same
    exact KeyScope.collides_refl _ x.item

/-- Definitions that have different keys change nothing when they are merged again. -/
theorem each_each (wf : t.WellFormed) (discerned : Discerned t.handles hs supply)
    (apart : hs.Pairwise fun a b => t.scope.collides a.item b.item = false)
    (ok : (Action.each merge hs t supply).result = .ok change) (later : Supply) :
    let after := (Action.each merge hs t supply).state
    (Action.each merge hs after later).result = .ok .unchanged ∧
      (Action.each merge hs after later).state.find? = after.find? := by
  have apart' : hs.Pairwise ((sited T t.bucket).Apart t.scope) := by
    refine apart.imp ?_
    intro a b apart _
    exact apart
  obtain ⟨result, sites⟩ := Sited.each_each apart' (ready wf discerned) ok later
  have sound := Sited.sound_each (S := sited T t.bucket) ⟨wf, rfl⟩ hs supply
  have sound' := Sited.sound_each sound hs later
  exact ⟨result, funext fun key => find?_eq_of_siteAt sound.1 sound'.1 (congrFun sites key)⟩

end ItemTable

/-! ## Component sets -/

namespace ComponentSet

variable {s s' o : ComponentSet} {supply : Supply} {change : Change}

theorem siteAt_eq_of_sameFinds (same : s.SameFinds s') : s'.siteAt = s.siteAt := by
  funext place
  rw [siteAt, same.componentAt, siteAt]

theorem chain?_eq_of_siteAt (wf : s.WellFormed) (wf' : s'.WellFormed)
    (same : s'.siteAt = s.siteAt) : s'.chain? = s.chain? := by
  funext name key
  rw [chain?_eq, chain?_eq]
  exact ItemTable.find?_eq_of_siteAt (wf.fits_componentAt name).wellFormed
    (wf'.fits_componentAt name).wellFormed (congrFun same (name, key))

/-- What lies at a place is among all that the set holds. -/
theorem mem_visible_of_mem (wf : s.WellFormed) {place : String × String} {h : Handle Resource}
    (held : h ∈ (s.siteAt place).chain.items) : h ∈ (s.visible .all).map Prod.snd := by
  have shared : h ∈ sited.share (s.visible .all) place := by
    rw [share_visible wf]
    exact held
  obtain ⟨v, member, is⟩ := Sited.exists_of_mem_share shared
  exact List.mem_map.mpr ⟨v, member, is⟩

theorem ready (wf : s.WellFormed)
    (discerned : Discerned ((s.visible .all).map Prod.snd) ((o.visible .all).map Prod.snd) supply) :
    sited.Ready s.scope (o.visible .all) s supply where
  sound := wf
  old v member := discerned.old v.2 (List.mem_map_of_mem member)
  one v hv w hw same := discerned.one w.2 (List.mem_map_of_mem hw) v.2
    (List.mem_append_right _ (List.mem_map_of_mem hv)) same
  scope place := by
    have fits := wf.fits_componentAt place.1
    exact (fits.wellFormed.scope_chainAt place.2).trans fits.scope
  guarded v member x held same := by
    have own := discerned.one v.2 (List.mem_map_of_mem member) x
      (List.mem_append_left _ (mem_visible_of_mem wf held)) same
    rw [own]
    exact KeyScope.collides_refl _ _

theorem pairwise_apart (wf : o.WellFormed) {scope : KeyScope}
    (apart : ∀ c ∈ o.table.slots, c.resources.handles.Pairwise fun a b =>
      scope.collides a.item b.item = false) :
    (o.visible .all).Pairwise (sited.Apart scope) := by
  rw [visible_all, List.pairwise_flatMap]
  constructor
  · intro c member
    refine List.pairwise_map.mpr ((apart c member).imp ?_)
    intro a b apart _
    exact apart
  · have names : o.table.slots.Pairwise fun c c' => c.name ≠ c'.name :=
      List.pairwise_map.mp wf.sound.nodup_keys
    refine names.imp fun ne v hv w hw same => ?_
    obtain ⟨_, -, rfl⟩ := List.mem_map.mp hv
    obtain ⟨_, -, rfl⟩ := List.mem_map.mp hw
    exact absurd (congrArg Prod.fst same) ne

/-- A set whose resources have different keys in each component changes nothing when it is merged
again. -/
theorem mergeSet_mergeSet (wf : s.WellFormed) (ho : o.WellFormed)
    (apart : ∀ c ∈ o.table.slots, c.resources.handles.Pairwise fun a b =>
      s.scope.collides a.item b.item = false)
    (discerned : Discerned ((s.visible .all).map Prod.snd) ((o.visible .all).map Prod.snd) supply)
    (ok : (mergeSet o s supply).result = .ok change) (later : Supply) :
    let after := (mergeSet o s supply).state
    (mergeSet o after later).result = .ok .unchanged ∧
      (mergeSet o after later).state.chain? = after.chain? := by
  intro after
  have singly := each_mergeInto_alike wf o supply
  have wf' : after.WellFormed := singly.state.right
  have again := each_mergeInto_alike wf' o later
  rw [← singly.result] at ok
  have idle (v : String × Handle Resource) (member : v ∈ o.visible .all) : sited.Idle v after := by
    have alone := Sited.idle_each (fun _ => id) (pairwise_apart ho apart) (ready wf discerned) ok v
      member
    exact alone.congr (siteAt_eq_of_sameFinds singly.state)
  obtain ⟨result, sites⟩ := Sited.each_of_idle wf' idle later
  refine ⟨again.result.symm.trans result, ?_⟩
  exact chain?_eq_of_siteAt wf' again.state.right
    ((siteAt_eq_of_sameFinds again.state).trans sites)

end ComponentSet

/-! ## Packages and profiles -/

/-- No two packages of the set have one key under the scope. -/
def PackageSet.DifferentKeys (scope : KeyScope) (o : PackageSet) : Prop :=
  o.packages.handles.Pairwise fun a b => scope.collides a.item b.item = false

/-- No two resources of one component have one key under the scope. -/
def ComponentSet.DifferentKeys (scope : KeyScope) (o : ComponentSet) : Prop :=
  ∀ c ∈ o.table.slots, c.resources.handles.Pairwise fun a b =>
    scope.collides a.item b.item = false

/-- The packages of `o` can be told from each other and from those of `s`. -/
abbrev PackageSet.Discerned (s o : PackageSet) (supply : Supply) : Prop :=
  HostProfile.Discerned s.packages.handles o.packages.handles supply

/-- The resources of `o` can be told from each other and from those of `s`. -/
abbrev ComponentSet.Discerned (s o : ComponentSet) (supply : Supply) : Prop :=
  HostProfile.Discerned ((s.visible .all).map Prod.snd) ((o.visible .all).map Prod.snd) supply

/-- Packages that have different keys change nothing when they are merged again. -/
theorem PackageSet.mergeSet_mergeSet {s o : PackageSet} {supply : Supply} {change : Change}
    (reachable : s.Reachable) (apart : o.DifferentKeys s.packages.scope)
    (discerned : s.Discerned o supply) (ok : (mergeSet o s supply).result = .ok change)
    (later : Supply) :
    let after := (mergeSet o s supply).state
    (mergeSet o after later).result = .ok .unchanged ∧
      (mergeSet o after later).state.packages.find? = after.packages.find? := by
  rw [mergeSet_eq] at ok ⊢
  exact ItemTable.each_each reachable.wellFormed discerned apart ok later

theorem ComponentSet.le_next_supply_mergeSet {s : ComponentSet} (wf : s.WellFormed)
    (o : ComponentSet) (supply : Supply) :
    supply.next ≤ (mergeSet o s supply).supply.next := by
  rw [← (each_mergeInto_alike wf o supply).supply]
  exact Sited.le_next_supply_each (S := sited) wf _ supply

namespace Profile

variable {p layer : Profile} {supply : Supply} {change : Change}

/-- What a merge of a layer that succeeds did to the components and to the packages. -/
theorem merge_eq_ok (ok : (merge layer p supply).result = .ok change) :
    let first := ComponentSet.mergeSet layer.components p.components supply
    let second := PackageSet.mergeSet layer.packages p.packages first.supply
    ∃ a b, first.result = .ok a ∧ second.result = .ok b ∧ change = a.aggregate b ∧
      (merge layer p supply).state = ⟨first.state, second.state⟩ := by
  intro first second
  obtain ⟨a, result, is⟩ := Outcome.andThen_eq_of_ok ok
  obtain ⟨b, result', rfl⟩ := Outcome.result_map_eq_ok ((congrArg Outcome.result is).symm.trans ok)
  exact ⟨a, b, result, result', rfl, congrArg Outcome.state is⟩

theorem merge_of_ok {a b : Change}
    (first : (ComponentSet.mergeSet layer.components p.components supply).result = .ok a)
    (second : (PackageSet.mergeSet layer.packages p.packages
      (ComponentSet.mergeSet layer.components p.components supply).supply).result = .ok b) :
    (merge layer p supply).result = .ok (a.aggregate b) := by
  have components : (onComponents (ComponentSet.mergeSet layer.components) p supply).result =
      .ok a := first
  rw [merge, Outcome.andThen_of_ok components, Outcome.result_map]
  exact congrArg (Except.map a.aggregate) second

/-- A layer whose definitions have different keys changes nothing when it is merged again. -/
theorem merge_merge (components : p.components.Reachable) (packages : p.packages.Reachable)
    (source : layer.components.Reachable)
    (resources_apart : layer.components.DifferentKeys p.components.scope)
    (packages_apart : layer.packages.DifferentKeys p.packages.packages.scope)
    (resources_discerned : p.components.Discerned layer.components supply)
    (packages_discerned : p.packages.Discerned layer.packages supply)
    (ok : (merge layer p supply).result = .ok change) (later : Supply) :
    let after := (merge layer p supply).state
    (merge layer after later).result = .ok .unchanged ∧
      (merge layer after later).state.components.chain? = after.components.chain? ∧
      (merge layer after later).state.packages.packages.find? = after.packages.packages.find? := by
  intro after
  obtain ⟨a, b, first, second, -, is⟩ := merge_eq_ok ok
  have wf := components.wellFormed
  have resources := ComponentSet.mergeSet_mergeSet wf source.wellFormed resources_apart
    resources_discerned first later
  have left := packages_discerned.mono
    (ComponentSet.le_next_supply_mergeSet wf layer.components supply)
  have others := PackageSet.mergeSet_mergeSet packages packages_apart left second
    (ComponentSet.mergeSet layer.components after.components later).supply
  have held : after = ⟨_, _⟩ := is
  rw [held] at others ⊢
  have again := merge_of_ok (p := ⟨_, _⟩) resources.1 others.1
  obtain ⟨-, -, -, -, -, is'⟩ := merge_eq_ok again
  rw [is']
  exact ⟨again, resources.2, others.2⟩

end Profile

/-- Merging a layer twice is merging it once: after a merge that succeeded, whatever the rules and
the contexts of the target, the same layer is merged again without a change to any chain, if no two
packages of the layer and no two resources of one of its components have one key under the scope of
the target. -/
theorem layer_merged_again :
    (∀ (s o : PackageSet) (supply later : Supply) (change : Change), s.Reachable →
      o.DifferentKeys s.packages.scope → s.Discerned o supply →
      (PackageSet.mergeSet o s supply).result = .ok change →
      let after := (PackageSet.mergeSet o s supply).state
      (PackageSet.mergeSet o after later).result = .ok .unchanged ∧
        (PackageSet.mergeSet o after later).state.packages.find? = after.packages.find?) ∧
    (∀ (s o : ComponentSet) (supply later : Supply) (change : Change), s.Reachable → o.Reachable →
      o.DifferentKeys s.scope → s.Discerned o supply →
      (ComponentSet.mergeSet o s supply).result = .ok change →
      let after := (ComponentSet.mergeSet o s supply).state
      (ComponentSet.mergeSet o after later).result = .ok .unchanged ∧
        (ComponentSet.mergeSet o after later).state.chain? = after.chain?) ∧
    (∀ (p layer : Profile) (supply later : Supply) (change : Change), p.components.Reachable →
      p.packages.Reachable → layer.components.Reachable →
      layer.components.DifferentKeys p.components.scope →
      layer.packages.DifferentKeys p.packages.packages.scope →
      p.components.Discerned layer.components supply → p.packages.Discerned layer.packages supply →
      (Profile.merge layer p supply).result = .ok change →
      let after := (Profile.merge layer p supply).state
      (Profile.merge layer after later).result = .ok .unchanged ∧
        (Profile.merge layer after later).state.components.chain? = after.components.chain? ∧
        (Profile.merge layer after later).state.packages.packages.find? =
          after.packages.packages.find?) := by
  refine ⟨?packages, ?components, ?profile⟩
  case packages =>
    intro s o supply later change reachable apart discerned ok
    exact PackageSet.mergeSet_mergeSet reachable apart discerned ok later
  case components =>
    intro s o supply later change reachable source apart discerned ok
    exact ComponentSet.mergeSet_mergeSet reachable.wellFormed source.wellFormed apart discerned ok
      later
  case profile =>
    intro p layer supply later change components packages source resources_apart packages_apart
      resources_discerned packages_discerned ok
    exact Profile.merge_merge components packages source resources_apart packages_apart
      resources_discerned packages_discerned ok later

/-- A layer with a pinned package, which takes the place of the one that the host has. -/
theorem layer_merged_again_of_pinned :
    let vim : Handle Package := ⟨0, 1, { name := "vim", mark := some '=' }⟩
    let nano : Handle Package := ⟨2, 3, { name := "nano" }⟩
    let held : Handle Package := ⟨4, 5, { name := "vim", version := "1.0" }⟩
    let port : Handle Resource := ⟨6, 7, { name := "port", value := "22" }⟩
    let resources := (ComponentSet.mergeResource "ssh" port {} ⟨8⟩).state
    let packages := (PackageSet.merge nano (PackageSet.merge vim .empty ⟨8⟩).state ⟨8⟩).state
    let layer : Profile := ⟨resources, packages⟩
    let host : Profile := ⟨{}, (PackageSet.merge held .empty ⟨8⟩).state⟩
    (Profile.merge layer host ⟨8⟩).result = .ok .modified ∧
      (Profile.merge layer (Profile.merge layer host ⟨8⟩).state ⟨8⟩).result = .ok .unchanged ∧
      (Profile.merge layer (Profile.merge layer host ⟨8⟩).state
        ⟨8⟩).state.packages.packages.find? =
          (Profile.merge layer host ⟨8⟩).state.packages.packages.find? ∧
      (PackageSet.mergeSet packages (PackageSet.mergeSet packages host.packages ⟨8⟩).state
        ⟨8⟩).result = .ok .unchanged ∧
      (ComponentSet.mergeSet resources (ComponentSet.mergeSet resources {} ⟨8⟩).state
        ⟨8⟩).result = .ok .unchanged := by
  intro vim nano held port resources packages layer host
  obtain ⟨in_packages, in_components, in_profile⟩ := layer_merged_again
  have empty : PackageSet.empty.Reachable := PackageSet.reachable_empty ..
  have reachable : host.packages.Reachable := empty.merge held
  have start : ComponentSet.Reachable {} := .empty .standard .nameArchContext none {} _
  have source : resources.Reachable := start.mergeResource "ssh" port ⟨8⟩
  have apart : packages.DifferentKeys host.packages.packages.scope := by
    unfold PackageSet.DifferentKeys
    decide +kernel
  have apart' : resources.DifferentKeys host.components.scope := by
    unfold ComponentSet.DifferentKeys
    decide +kernel
  have discerned : host.packages.Discerned packages ⟨8⟩ := ⟨by decide +kernel, by decide +kernel⟩
  have discerned' : host.components.Discerned resources ⟨8⟩ :=
    ⟨by decide +kernel, by decide +kernel⟩
  have merged : (Profile.merge layer host ⟨8⟩).result = .ok .modified := by decide +kernel
  obtain ⟨unchanged, -, found⟩ := in_profile host layer ⟨8⟩ ⟨8⟩ .modified start reachable source
    apart' apart discerned' discerned merged
  exact ⟨merged, unchanged, found,
    (in_packages host.packages packages ⟨8⟩ ⟨8⟩ .modified reachable apart discerned
      (by decide +kernel)).1,
    (in_components {} resources ⟨8⟩ ⟨8⟩ .modified start source apart' discerned'
      (by decide +kernel)).1⟩

end HostProfile
