import HostProfile.Proofs.ItemTable.Indistinguishable
import HostProfile.Proofs.Signature

/-!
# Sorted output

A sorted listing is made of one block for each chain. The blocks come in the order of the keys,
which is linear for any lower case of characters, and each has the definitions of its chain that are
shown, in the order of items. So buckets have no part in it: tables with the same definitions under
each key list the same, choose the same winners and have the same contents, and sets with the same
definitions in each component list the same, too.
-/

namespace HostProfile

theorem CaseMode.linearUpTo_eq (lower : Char → List Char) (case : CaseMode) :
    LinearUpTo (case.compareBy lower) (· == ·) :=
  .of_transCmp fun _ _ => Std.LawfulEqCmp.compare_eq_iff_eq.trans beq_iff_eq.symm

/-! ## Handles of the same items -/

/-- The handles hold one item, be it in different cells. -/
def Handle.SameItem {T : Type} (x y : Handle T) : Prop := x.item = y.item

theorem forall₂_sameItem_iff {T : Type} {xs ys : List (Handle T)} :
    List.Forall₂ Handle.SameItem xs ys ↔ xs.map (·.item) = ys.map (·.item) := by
  rw [← List.forall₂_eq_eq_eq, List.forall₂_map_left_iff, List.forall₂_map_right_iff]
  rfl

theorem map_item_filter {T : Type} (p : T → Bool) (hs : List (Handle T)) :
    (hs.filter fun h => p h.item).map (·.item) = (hs.map (·.item)).filter p :=
  List.filter_map.symm

variable {T : Type} [Item T]

namespace Chain

theorem forall₂_compete {ws ws' : List (Handle T)} {h h' : Handle T} (same : h.SameItem h')
    (winners : List.Forall₂ Handle.SameItem ws ws') :
    List.Forall₂ Handle.SameItem (compete ws h) (compete ws' h') := by
  induction winners with
  | nil => exact .cons same .nil
  | cons head rest ih =>
      unfold Handle.SameItem at head same
      simp only [compete, head, same]
      split
      · refine .cons ?_ rest
        split
        · exact same
        · exact head
      · exact .cons head ih

theorem forall₂_foldl_compete {hs hs' ws ws' : List (Handle T)}
    (same : List.Forall₂ Handle.SameItem hs hs') (winners : List.Forall₂ Handle.SameItem ws ws') :
    List.Forall₂ Handle.SameItem (hs.foldl compete ws) (hs'.foldl compete ws') := by
  induction same generalizing ws ws' with
  | nil => exact winners
  | cons head _ ih => exact ih (forall₂_compete head winners)

/-- Which items win depends on the items alone. -/
theorem map_item_resolved {c c' : Chain T}
    (same : c.items.map (·.item) = c'.items.map (·.item)) :
    c.resolved.map (·.item) = c'.resolved.map (·.item) := by
  have active : (c.items.filter (Item.isActive ·.item)).map (·.item) =
      (c'.items.filter (Item.isActive ·.item)).map (·.item) := by
    rw [map_item_filter, map_item_filter, same]
  exact forall₂_sameItem_iff.mp (forall₂_foldl_compete (forall₂_sameItem_iff.mpr active) .nil)

end Chain

/-! ## Listings of tables -/

namespace ItemTable

variable {t t' : ItemTable T} {order : OutputOrder}

/-- The listing has every definition of the table that is shown, and is made of one block for each
chain, in the order of the keys. -/
structure IsListing (t : ItemTable T) (order : OutputOrder) (listing : List (Handle T)) :
    Prop where
  once : listing.Perm (t.handles.filter fun h => order.visibility.shows (Item.priority h.item))
  blocks : ∃ (chains : List (Chain T)) (block : Chain T → List (Handle T)),
    listing = chains.flatMap block ∧ (∀ c, c ∈ chains ↔ t.find? c.key = some c) ∧
    chains.Pairwise (fun a b => order.case.compare a.key b.key = .lt) ∧
    ∀ c ∈ chains, (block c).Perm (c.visible order.visibility) ∧
      (block c).Pairwise fun x y => (Item.compare x.item y.item).isLE = true

theorem visible_eq (t : ItemTable T) (visibility : Visibility) :
    t.visible visibility = t.handles.filter fun h => visibility.shows (Item.priority h.item) := by
  rw [handles, List.filter_flatMap]
  rfl

theorem perm_sortedBy (t : ItemTable T) (order : OutputOrder) :
    (t.sortedBy order).Perm (t.visible order.visibility) := by
  refine (List.Perm.flatMap_left _ fun c _ => perm_sortHandles _).trans ?_
  exact (List.mergeSort_perm t.table.slots _).flatMap_right _

theorem WellFormed.isListing [OrderedItem T] (wf : t.WellFormed) (order : OutputOrder) :
    t.IsListing order (t.sortedBy order) where
  once := t.visible_eq order.visibility ▸ t.perm_sortedBy order
  blocks := by
    refine ⟨t.sortedChains order.case, (·.sorted order.visibility), rfl, fun c => ?_,
      wf.sound.pairwise_mergeSort order.case.compare,
      fun c _ => ⟨perm_sortHandles _, pairwise_sortHandles _⟩⟩
    refine List.mem_mergeSort.trans ⟨wf.find?_key, fun found => ?_⟩
    exact (wf.sound.find?_eq_some_iff.mp found).1

/-- The definitions under a key, in the order in which they came in. -/
def defined (t : ItemTable T) (key : String) : Option (List T) :=
  (t.find? key).map fun c => c.items.map (·.item)

theorem forall₂_sortedChains (sound : t.table.Sound) (sound' : t'.table.Sound)
    (same : t.defined = t'.defined) (case : CaseMode) :
    List.Forall₂ (fun c c' => c.items.map (·.item) = c'.items.map (·.item))
      (t.sortedChains case) (t'.sortedChains case) := by
  refine KeyedTable.Sound.forall₂_mergeSort sound sound' (fun key => ?_) case.compare
  have here : (t.find? key).map _ = (t'.find? key).map _ := congrFun same key
  change Option.Rel _ (t.find? key) (t'.find? key)
  generalize t.find? key = c? at here
  generalize t'.find? key = d? at here
  cases c? with
  | none =>
      cases d? with
      | none => exact .none
      | some d => cases here
  | some c =>
      cases d? with
      | none => cases here
      | some d => exact .some (Option.some.inj here)

/-- What is listed chain by chain is told by the definitions under the keys. -/
theorem flatMap_sortedChains {β : Type} {f : Chain T → List β} (sound : t.table.Sound)
    (sound' : t'.table.Sound) (same : t.defined = t'.defined)
    (each : ∀ c c' : Chain T, c.items.map (·.item) = c'.items.map (·.item) → f c = f c')
    (case : CaseMode) :
    (t.sortedChains case).flatMap f = (t'.sortedChains case).flatMap f := by
  rw [List.flatMap_def, List.flatMap_def,
    map_eq_of_forall₂ (forall₂_sortedChains sound sound' same case) each]

theorem sortedItems_eq_of_defined (sound : t.table.Sound) (sound' : t'.table.Sound)
    (same : t.defined = t'.defined) (order : OutputOrder) :
    t.sortedItems order = t'.sortedItems order := by
  rw [sortedItems_eq, sortedItems_eq]
  refine flatMap_sortedChains sound sound' same (fun c c' alike => ?_) order.case
  have shown (c : Chain T) : chainItems c order.visibility =
      (c.items.map (·.item)).filter fun a => order.visibility.shows (Item.priority a) :=
    map_item_filter (fun a => order.visibility.shows (Item.priority a)) c.items
  rw [shown, shown, alike]

theorem map_item_resolve (sound : t.table.Sound) (sound' : t'.table.Sound)
    (same : t.defined = t'.defined) (order : t.order = t'.order) :
    t.resolve.map (·.item) = t'.resolve.map (·.item) := by
  rw [resolve, resolve, List.map_flatMap, List.map_flatMap, order]
  refine flatMap_sortedChains sound sound' same (fun c c' alike => ?_) t'.order.case
  rw [map_item_sortHandles, map_item_sortHandles, Chain.map_item_resolved alike]

end ItemTable

/-! ## Listings of sets -/

namespace ComponentSet

variable {s s' : ComponentSet}

/-- The listing has every resource of the set that is shown. The names of the components come in
order, each with a listing of the component, and a component is there exactly when it shows
anything. -/
structure IsListing (s : ComponentSet) (order : OutputOrder)
    (listing : List (String × List (Handle Resource))) : Prop where
  once : (listing.flatMap fun entry => entry.2.map (entry.1, ·)).Perm
    ((s.visible .all).filter fun entry => order.visibility.shows (Item.priority entry.2.item))
  ordered : listing.Pairwise fun a b => order.case.compare a.1 b.1 = .lt
  entries : ∀ name handles, (name, handles) ∈ listing →
    ∃ c, s.find? name = some c ∧ c.resources.IsListing order handles
  shown_iff : ∀ name, (∃ handles, (name, handles) ∈ listing) ↔
    ∃ c, s.find? name = some c ∧ c.resources.visible order.visibility ≠ []

theorem visible_eq (s : ComponentSet) (visibility : Visibility) :
    s.visible visibility =
      (s.visible .all).filter fun entry => visibility.shows (Item.priority entry.2.item) := by
  rw [visible, visible, List.filter_flatMap]
  refine congrArg (s.table.slots.flatMap ·) (funext fun c => ?_)
  rw [List.filter_map, ItemTable.visible_all, ItemTable.visible_eq]
  rfl

theorem perm_sortedBy (s : ComponentSet) (order : OutputOrder) :
    ((s.sortedBy order).flatMap fun entry => entry.2.map (entry.1, ·)).Perm
      (s.visible order.visibility) := by
  rw [sortedBy, flatMap_filter_of_nil fun entry _ empty => by simpa using empty, List.flatMap_map]
  refine (List.Perm.flatMap_left _ fun c _ => ?_).trans
    ((List.mergeSort_perm s.table.slots _).flatMap_right _)
  exact (c.resources.perm_sortedBy order).map _

theorem WellFormed.isListing (wf : s.WellFormed) (order : OutputOrder) :
    s.IsListing order (s.sortedBy order) where
  once := s.visible_eq order.visibility ▸ s.perm_sortedBy order
  ordered := wf.pairwise_sortedBy order
  entries name handles listed := by
    obtain ⟨-, c, found, rfl⟩ := wf.mem_sortedBy_iff.mp listed
    exact ⟨c, found, (wf.stored found).fits.wellFormed.isListing order⟩
  shown_iff name := by
    have empty_iff (c : Component) : c.resources.sortedBy order = [] ↔
        c.resources.visible order.visibility = [] := by
      rw [← List.length_eq_zero_iff, (c.resources.perm_sortedBy order).length_eq,
        List.length_eq_zero_iff]
    simp only [wf.mem_sortedBy_iff]
    constructor
    · rintro ⟨_, shown, c, found, rfl⟩
      exact ⟨c, found, (empty_iff c).not.mp shown⟩
    · rintro ⟨c, found, shown⟩
      exact ⟨_, (empty_iff c).not.mpr shown, c, found, rfl⟩

/-- The definitions of a resource of a component, in the order in which they came in. -/
def defined (s : ComponentSet) (component key : String) : Option (List Resource) :=
  (s.chain? component key).map fun c => c.items.map (·.item)

theorem defined_componentAt (s : ComponentSet) (name : String) :
    (s.componentAt name).resources.defined = s.defined name := by
  funext key
  rw [defined, chain?_eq]
  rfl

theorem sortedItems_eq_of_defined (wf : s.WellFormed) (wf' : s'.WellFormed)
    (same : s.defined = s'.defined) (order : OutputOrder) :
    s.sortedItems order = s'.sortedItems order := by
  refine (sortedItems_eq_iff_componentAt wf wf').mpr fun name => ?_
  refine ItemTable.sortedItems_eq_of_defined (wf.fits_componentAt name).wellFormed.sound
    (wf'.fits_componentAt name).wellFormed.sound ?_ order
  rw [defined_componentAt, defined_componentAt, same]

/-- Sets with the same chains list the same handles. -/
theorem sortedBy_eq_of_chain? (wf : s.WellFormed) (wf' : s'.WellFormed)
    (same : s'.chain? = s.chain?) (order : OutputOrder) :
    s'.sortedBy order = s.sortedBy order := by
  refine sortedBy_eq_of_componentAt wf' wf fun name => ?_
  refine congrFun (ItemTable.sortedBy_eq_of_find? (wf.fits_componentAt name).wellFormed.sound
    (wf'.fits_componentAt name).wellFormed.sound (funext fun key => ?_)) order
  rw [← chain?_eq, ← chain?_eq, same]

end ComponentSet

/-- Sorted output does not depend on the layout. Keys are in a linear order, whatever the lower case
of characters is. The output of a table and that of a set is such a listing. Containers with the
same definitions under each key list the same items, choose the same winners and have the same
contents; where they share the chains, they list the same handles. -/
theorem listings_of_definitions [LawfulItem T] [OrderedItem T] :
    (∀ case : CaseMode, case.compare = case.compareBy Text.lowercase ∧
      ∀ lower, LinearUpTo (case.compareBy lower) (· == ·)) ∧
    (∀ t : ItemTable T, t.Reachable → ∀ order, t.IsListing order (t.sortedBy order)) ∧
    (∀ t t' : ItemTable T, t.Reachable → t'.Reachable → t.defined = t'.defined →
      (∀ order, t.sortedItems order = t'.sortedItems order) ∧
      t.contents.render = t'.contents.render ∧ t.signature = t'.signature ∧
      (t.order = t'.order → t.resolve.map (·.item) = t'.resolve.map (·.item)) ∧
      (t'.find? = t.find? → t'.sortedBy = t.sortedBy ∧
        (t'.order = t.order → t'.resolve = t.resolve))) ∧
    (∀ s : ComponentSet, s.Reachable → ∀ order, s.IsListing order (s.sortedBy order)) ∧
    ∀ s s' : ComponentSet, s.Reachable → s'.Reachable → s.defined = s'.defined →
      (∀ order, s.sortedItems order = s'.sortedItems order) ∧
      s.contents.render = s'.contents.render ∧ s.signature = s'.signature ∧
      (s'.chain? = s.chain? → s'.sortedBy = s.sortedBy) := by
  refine ⟨fun case => ⟨case.compare_eq, fun lower => case.linearUpTo_eq lower⟩,
    fun t reachable => reachable.wellFormed.isListing, ?tables,
    fun s reachable => reachable.wellFormed.isListing, ?sets⟩
  case tables =>
    intro t t' reachable reachable' same
    have sound := reachable.wellFormed.sound
    have sound' := reachable'.wellFormed.sound
    have listed := ItemTable.sortedItems_eq_of_defined sound sound' same
    have contents : t.contents.render = t'.contents.render := by
      rw [t.contents_eq, t'.contents_eq, listed]
    exact ⟨listed, contents, congrArg Digest.ofText contents,
      ItemTable.map_item_resolve sound sound' same,
      fun chains => ⟨ItemTable.sortedBy_eq_of_find? sound sound' chains,
        ItemTable.resolve_eq_of_find? sound sound' chains⟩⟩
  case sets =>
    intro s s' reachable reachable' same
    have listed := ComponentSet.sortedItems_eq_of_defined reachable.wellFormed
      reachable'.wellFormed same
    have contents : s.contents.render = s'.contents.render := by
      rw [s.contents_eq, s'.contents_eq, listed]
    exact ⟨listed, contents, congrArg Digest.ofText contents, fun chains => funext
      (ComponentSet.sortedBy_eq_of_chain? reachable.wellFormed reachable'.wellFormed chains)⟩

/-- Two packages that are merged in the opposite order, into tables of other sizes, come out in one
order. A component comes out alike of sets of other sizes. -/
theorem listings_of_definitions_of_layouts :
    let vim : Handle Package := ⟨0, 1, { name := "vim" }⟩
    let git : Handle Package := ⟨2, 3, { name := "Git" }⟩
    let table (n : Nat) (first second : Handle Package) : ItemTable Package :=
      let empty : ItemTable Package :=
        { table := .withBuckets n, rules := .standard, bucket := .name, scope := .nameArch }
      (ItemTable.merge second (ItemTable.merge first empty {}).state {}).state
    let port : Handle Resource := ⟨0, 1, { name := "port", value := "22" }⟩
    let set (n : Nat) : ComponentSet :=
      (ComponentSet.mergeResource "ssh" port { table := .withBuckets n } {}).state
    let one := table 1 vim git
    let other := table 5 git vim
    one.handles = [vim, git] ∧ other.handles = [git, vim] ∧ one.sortedBy {} = other.sortedBy {} ∧
      CaseMode.insensitive.compare "Git" "vim" = .lt ∧ one.resolve = other.resolve ∧
      one.signature = other.signature ∧
      (set 1).table.bucketCount = 1 ∧ (set 7).table.bucketCount = 7 ∧
      (set 1).sortedBy {} = (set 7).sortedBy {} ∧ (set 1).signature = (set 7).signature := by
  intro vim git table port set one other
  have filled (n first second) : (table n first second).Reachable :=
    .merge second {} (.merge first {} (.empty .standard .name .nameArch none {} n))
  have grouped (n) : (set n).Reachable :=
    .mergeResource _ _ {} (.empty .standard .nameArchContext none {} n)
  have chains : one.find? = other.find? :=
    (filled 5 git vim).wellFormed.sound.find?_eq_of_perm (filled 1 vim git).wellFormed.sound
      (by decide +kernel)
  have order (n first second) : (table n first second).order = {} := rfl
  have components : (set 1).chain? = (set 7).chain? := by
    funext component key
    have absent (n name) : ComponentSet.find? { table := .withBuckets n } name = none :=
      KeyedTable.Sound.find?_withBuckets n name
    have chain (n) : (set n).chain? component key = if component = "ssh" then
          (Component.merge port (ComponentSet.componentAt { table := .withBuckets n } "ssh")
            {}).state.resources.find? key
        else ComponentSet.chain? { table := .withBuckets n } component key :=
      ComponentSet.chain?_upsert (.empty .standard .nameArchContext none {} n) (fun _ _ => rfl)
        (fun _ supply wf => wf.merge port supply) {} component key
    rw [chain, chain]
    simp only [ComponentSet.componentAt, ComponentSet.chain?, absent]
    rfl
  obtain ⟨-, -, tables, -, sets⟩ := listings_of_definitions (T := Package)
  obtain ⟨-, -, signature, -, handles⟩ := tables one other (filled _ _ _) (filled _ _ _)
    (by unfold ItemTable.defined; rw [chains])
  obtain ⟨-, -, signature', sorted'⟩ := sets (set 1) (set 7) (grouped 1) (grouped 7)
    (by unfold ComponentSet.defined; rw [components])
  obtain ⟨sorted, resolve⟩ := handles chains.symm
  exact ⟨by decide +kernel, by decide +kernel, (congrFun sorted {}).symm, by decide +kernel,
    (resolve ((order 5 git vim).trans (order 1 vim git).symm)).symm, signature, by decide +kernel,
    by decide +kernel, (congrFun (sorted' components.symm) {}).symm, signature'⟩

end HostProfile
