import HostProfile.Proofs.Chain.Winners
import HostProfile.Proofs.ItemTable.Listing

/-!
# Tables that differ in derivations only

Two tables hold the same up to derivation when each definition of either has a twin in the other.
Their sorted listings are then the same up to derivation, whatever the order of their buckets and
chains. Their winners have the same names, architectures and priorities; they are the same up to
derivation where no two definitions share the lead, since between those the order of the chain
decides.
-/

namespace HostProfile

variable {T : Type} [Item T]

/-- The item without its derivation. -/
def Item.underived (a : T) : T := Item.withDerivation a {}

/-- The two differ in nothing but their derivations. -/
structure Twins (a b : T) : Prop where
  fields : Item.sameFields a b = true
  priority : Item.priority a = Item.priority b

theorem Rivals.of_sameFields [LawfulItem T] {a b : T} (same : Item.sameFields a b = true) :
    Rivals a b :=
  ⟨Item.eq_of_sameFields same Item.name LawfulItem.name_withPriority
      LawfulItem.name_withDerivation,
    Item.eq_of_sameFields same Item.arch LawfulItem.arch_withPriority
      LawfulItem.arch_withDerivation⟩

/-- Items that are the same without their derivations agree in all that does not depend on these. -/
theorem eq_of_underived_eq {α : Type} {a b : T} (same : Item.underived a = Item.underived b)
    (f : T → α) (derivation_free : ∀ (x : T) (d : Derivation), f (Item.withDerivation x d) = f x) :
    f a = f b :=
  (derivation_free a {}).symm.trans ((congrArg f same).trans (derivation_free b {}))

theorem KeyScope.collides_of_underived_eq [LawfulItem T] (scope : KeyScope) {a b : T}
    (same : Item.underived a = Item.underived b) : scope.collides a b = true := by
  have name := eq_of_underived_eq same Item.name LawfulItem.name_withDerivation
  have arch := eq_of_underived_eq same Item.arch LawfulItem.arch_withDerivation
  have context := eq_of_underived_eq same Item.context LawfulItem.context_withDerivation
  cases scope <;> simp [collides, name, arch, context]

namespace Twins

variable {a b : T}

theorem isActive (twins : Twins a b) : Item.isActive a = Item.isActive b := by
  rw [Item.isActive, Item.isActive, twins.priority]

variable [LawfulItem T]

theorem symm (twins : Twins a b) : Twins b a :=
  ⟨(Item.sameFields_comm ..).trans twins.fields, twins.priority.symm⟩

theorem underived_eq (twins : Twins a b) : Item.underived a = Item.underived b := by
  have equal := (LawfulItem.sameFields_iff a b).mp twins.fields (Item.priority a) {}
  rw [LawfulItem.withPriority_priority, twins.priority, LawfulItem.withPriority_priority] at equal
  exact equal

theorem rivals (twins : Twins a b) : Rivals a b := .of_sameFields twins.fields

theorem key_eq (twins : Twins a b) (bucket : KeyScope) : bucket.key a = bucket.key b :=
  bucket.key_eq_of_sameFields twins.fields

end Twins

namespace ItemTable

variable {t t' : ItemTable T} {x w : Handle T}

/-! ## What is listed -/

theorem mem_listing_iff {case : CaseMode} {f : Chain T → List (Handle T)} :
    (x ∈ (t.sortedChains case).flatMap fun c => sortHandles (f c)) ↔
      ∃ c ∈ t.table.slots, x ∈ f c := by
  simp only [List.mem_flatMap, sortedChains, sortHandles, List.mem_mergeSort]

theorem mem_sortedBy_iff {order : OutputOrder} :
    x ∈ t.sortedBy order ↔
      x ∈ t.handles ∧ order.visibility.shows (Item.priority x.item) = true := by
  refine mem_listing_iff.trans ?_
  simp only [Chain.visible, handles, List.mem_filter, List.mem_flatMap]
  tauto

theorem mem_resolve_iff : x ∈ t.resolve ↔ ∃ c ∈ t.table.slots, x ∈ c.resolved := mem_listing_iff

/-- The definition is active, and no rival of it under its bucket key has a higher priority. -/
structure Leads (t : ItemTable T) (w : Handle T) : Prop where
  held : w ∈ t.handles
  active : Item.isActive w.item = true
  highest : ∀ x ∈ t.handles, t.keyOf x.item = t.keyOf w.item → Rivals x.item w.item →
    Item.priority x.item ≤ Item.priority w.item

/-- No two definitions share the lead: of the active ones with one name and architecture under one
bucket key, one alone has the highest priority. -/
def Decided (t : ItemTable T) : Prop :=
  ∀ v w, t.Leads v → t.Leads w → t.keyOf v.item = t.keyOf w.item → Rivals v.item w.item → v = w

/-- A rival with the priority of a leader leads as well. -/
theorem Leads.of_priority (leads : t.Leads w) (held : x ∈ t.handles)
    (key : t.keyOf x.item = t.keyOf w.item) (rivals : Rivals x.item w.item)
    (priority : Item.priority x.item = Item.priority w.item) : t.Leads x where
  held := held
  active := by
    rw [Item.isActive, priority]
    exact leads.active
  highest y among same_key rivals' := by
    rw [priority]
    exact leads.highest y among (same_key.trans key) (rivals'.trans rivals)

namespace WellFormed

theorem leads_of_mem_resolve (wf : t.WellFormed) (won : w ∈ t.resolve) : t.Leads w := by
  obtain ⟨c, stored, won⟩ := mem_resolve_iff.mp won
  obtain ⟨held, active, highest⟩ := Chain.highest_of_mem_resolved won
  refine ⟨List.mem_flatMap.mpr ⟨c, stored, held⟩, active, fun x among key rivals => ?_⟩
  apply highest x ?_ rivals
  rw [wf.mem_handles_iff, key, wf.keyOf_of_mem stored held, wf.chainAt_key stored] at among
  exact among

theorem exists_resolve (wf : t.WellFormed) (held : x ∈ t.handles)
    (active : Item.isActive x.item = true) :
    ∃ w ∈ t.resolve, t.keyOf w.item = t.keyOf x.item ∧ Rivals w.item x.item := by
  obtain ⟨c, stored, held⟩ := List.mem_flatMap.mp held
  obtain ⟨w, won, rivals⟩ := Chain.exists_resolved held active
  refine ⟨w, mem_resolve_iff.mpr ⟨c, stored, won⟩, ?_, rivals⟩
  exact (wf.keyOf_of_mem stored (Chain.highest_of_mem_resolved won).1).trans
    (wf.keyOf_of_mem stored held).symm

/-- A leader that comes first in its chain wins. -/
theorem mem_resolve_of_first (wf : t.WellFormed) (leads : t.Leads w) {rest : List (Handle T)}
    (first : (t.chainAt (t.keyOf w.item)).items = w :: rest) : w ∈ t.resolve := by
  obtain ⟨c, stored, held⟩ := List.mem_flatMap.mp leads.held
  rw [wf.keyOf_of_mem stored held, wf.chainAt_key stored] at first
  refine mem_resolve_iff.mpr ⟨c, stored, Chain.mem_resolved_of_first first leads.active ?_⟩
  intro y among rivals
  refine leads.highest y (List.mem_flatMap.mpr ⟨c, stored, among⟩) ?_ rivals
  exact (wf.keyOf_of_mem stored among).trans (wf.keyOf_of_mem stored held).symm

/-- No two winners under one bucket key are rivals. -/
theorem pairwise_resolve (wf : t.WellFormed) :
    t.resolve.Pairwise fun v w => ¬ (t.keyOf v.item = t.keyOf w.item ∧ Rivals v.item w.item) := by
  refine wf.pairwise_listing t.order.case
    (R := fun a b => ¬ (t.keyOf a = t.keyOf b ∧ Rivals a b))
    (fun _ _ _ won => (Chain.highest_of_mem_resolved won).1) (fun c _ => ?_) fun a b before => ?_
  · have apart := (perm_sortHandles c.resolved).symm.pairwise c.pairwise_resolved
      fun apart rivals => apart rivals.symm
    exact apart.imp fun apart rivals => apart rivals.2
  · rintro ⟨key, -⟩
    rw [show t.bucket.key a = t.bucket.key b from key] at before
    exact absurd (Std.ReflCmp.compare_self.symm.trans before) nofun

end WellFormed

/-! ## Twins in two tables -/

/-- The tables have the same bucket keys and hold the same up to derivation. -/
structure Twin (t t' : ItemTable T) : Prop where
  bucket : t.bucket = t'.bucket
  left : ∀ x ∈ t.handles, ∃ y ∈ t'.handles, Twins x.item y.item
  right : ∀ y ∈ t'.handles, ∃ x ∈ t.handles, Twins x.item y.item

/-- No two definitions of the table have the same fields. -/
def Untwinned (t : ItemTable T) : Prop :=
  t.handles.Pairwise fun x y => Item.sameFields x.item y.item = false

/-- What a winner wins, and with which priority. -/
def standing (bucket : KeyScope) (w : Handle T) : String × String × Option String × Int32 :=
  (bucket.key w.item, Item.name w.item, Item.arch w.item, Item.priority w.item)

theorem standing_eq_iff {bucket : KeyScope} {v w : Handle T} :
    standing bucket v = standing bucket w ↔ bucket.key v.item = bucket.key w.item ∧
      Rivals v.item w.item ∧ Item.priority v.item = Item.priority w.item := by
  simp only [standing, Prod.mk.injEq, Rivals, and_assoc]

namespace Twin

variable [LawfulItem T]

theorem symm (twin : t.Twin t') : t'.Twin t where
  bucket := twin.bucket.symm
  left y held := by
    obtain ⟨x, held, twins⟩ := twin.right y held
    exact ⟨x, held, twins.symm⟩
  right x held := by
    obtain ⟨y, held, twins⟩ := twin.left x held
    exact ⟨y, held, twins.symm⟩

omit [LawfulItem T] in
theorem keyOf_eq (twin : t.Twin t') : t'.keyOf = t.keyOf :=
  congrArg KeyScope.key twin.bucket.symm

/-- The twin of a leader leads. -/
theorem leads (twin : t.Twin t') {v : Handle T} (leads : t.Leads v) (held : w ∈ t'.handles)
    (twins : Twins v.item w.item) : t'.Leads w where
  held := held
  active := twins.isActive ▸ leads.active
  highest y among key rivals := by
    obtain ⟨x, held', xy⟩ := twin.right y among
    rw [twin.keyOf_eq] at key
    rw [← xy.priority, ← twins.priority]
    apply leads.highest x held'
    · exact (xy.key_eq t.bucket).trans (key.trans (twins.key_eq t.bucket).symm)
    · exact xy.rivals.trans (rivals.trans twins.rivals.symm)

/-- Each winner has one of the same standing in the other table. -/
theorem exists_standing (twin : t.Twin t') (wf : t.WellFormed) (wf' : t'.WellFormed)
    (won : w ∈ t.resolve) : ∃ v ∈ t'.resolve, standing t.bucket v = standing t.bucket w := by
  have leads := wf.leads_of_mem_resolve won
  obtain ⟨x, held, wx⟩ := twin.left w leads.held
  obtain ⟨v, won', key, vx⟩ := wf'.exists_resolve held (wx.isActive ▸ leads.active)
  have leads' := wf'.leads_of_mem_resolve won'
  obtain ⟨u, held', uv⟩ := twin.right v leads'.held
  -- Neither of the two is outranked by the twin of the other.
  have ge := leads'.highest x held key.symm vx.symm
  rw [twin.keyOf_eq] at key
  have key := key.trans (wx.key_eq t.bucket).symm
  have rivals := vx.trans wx.rivals.symm
  have le := leads.highest u held' ((uv.key_eq t.bucket).trans key) (uv.rivals.trans rivals)
  rw [uv.priority] at le
  rw [← wx.priority] at ge
  exact ⟨v, won', standing_eq_iff.mpr ⟨key, rivals, Int32.le_antisymm le ge⟩⟩

/-- The winners of both tables have the same standings. -/
theorem perm_standings (twin : t.Twin t') (wf : t.WellFormed) (wf' : t'.WellFormed) :
    (t.resolve.map (standing t.bucket)).Perm (t'.resolve.map (standing t.bucket)) := by
  have nodup {u : ItemTable T} (wf : u.WellFormed) (bucket : u.bucket = t.bucket) :
      (u.resolve.map (standing t.bucket)).Nodup := by
    refine List.pairwise_map.mpr (wf.pairwise_resolve.imp fun apart same => apart ?_)
    obtain ⟨key, rivals, -⟩ := standing_eq_iff.mp same
    exact ⟨by rw [keyOf, keyOf, bucket, key], rivals⟩
  rw [List.perm_ext_iff_of_nodup (nodup wf rfl) (nodup wf' twin.bucket.symm)]
  intro place
  simp only [List.mem_map]
  constructor
  · rintro ⟨w, won, rfl⟩
    exact twin.exists_standing wf wf' won
  · rintro ⟨w, won, rfl⟩
    obtain ⟨v, won', same⟩ := twin.symm.exists_standing wf' wf won
    exact ⟨v, won', by rw [twin.bucket, same]⟩

/-- In a table without shared leads a winner is the twin of all of its standing. -/
theorem twins_of_decided (twin : t.Twin t') (decided : t.Decided) (leads : t.Leads w)
    {v : Handle T} (held : v ∈ t'.handles) (same : standing t.bucket v = standing t.bucket w) :
    Twins w.item v.item := by
  obtain ⟨u, held, uv⟩ := twin.right v held
  obtain ⟨key, rivals, priority⟩ := standing_eq_iff.mp same
  have key : t.keyOf u.item = t.keyOf w.item := (uv.key_eq t.bucket).trans key
  have rivals := uv.rivals.trans rivals
  have leads' := leads.of_priority held key rivals (uv.priority.trans priority)
  obtain rfl := decided u w leads' leads key rivals
  exact uv

variable [OrderedItem T] {case : CaseMode}

/-- Listings of twins in two tables are the same up to derivation. -/
theorem map_listing_eq (twin : t.Twin t') (wf : t.WellFormed) (wf' : t'.WellFormed)
    {f f' : Chain T → List (Handle T)} (inside : ∀ c, ∀ x ∈ f c, x ∈ c.items)
    (inside' : ∀ c, ∀ x ∈ f' c, x ∈ c.items)
    (apart : ∀ c ∈ t.table.slots,
      (f c).Pairwise fun x y => Item.sameFields x.item y.item = false)
    (apart' : ∀ c ∈ t'.table.slots,
      (f' c).Pairwise fun x y => Item.sameFields x.item y.item = false) :
    let listing := (t.sortedChains case).flatMap fun c => sortHandles (f c)
    let listing' := (t'.sortedChains case).flatMap fun c => sortHandles (f' c)
    (∀ x ∈ listing, ∃ y ∈ listing', Twins x.item y.item) →
    (∀ y ∈ listing', ∃ x ∈ listing, Twins x.item y.item) →
    listing.map (Item.underived ·.item) = listing'.map (Item.underived ·.item) := by
  intro listing listing' left right
  have := transCmp_on (listingOrder case t.bucket) (Handle.item : Handle T → T)
  have ties {x y : Handle T} (twins : Twins x.item y.item) :
      listingOrder case t.bucket x.item y.item = .eq := listingOrder_eq_iff.mpr twins.fields
  have sorted := wf.strictly_sorted_listing case (fun c _ => inside c) apart
  have sorted' := wf'.strictly_sorted_listing case (fun c _ => inside' c) apart'
  rw [← twin.bucket] at sorted'
  exact map_eq_of_forall₂ (forall₂_of_strictly_sorted ties sorted sorted' left right)
    fun x y twins => twins.underived_eq

theorem sortedBy_eq (twin : t.Twin t') (wf : t.WellFormed) (wf' : t'.WellFormed)
    (untwinned : t.Untwinned) (untwinned' : t'.Untwinned) (order : OutputOrder) :
    (t.sortedBy order).map (Item.underived ·.item) =
      (t'.sortedBy order).map (Item.underived ·.item) := by
  have shown (c : Chain T) (x : Handle T) (member : x ∈ c.visible order.visibility) : x ∈ c.items :=
    (List.mem_filter.mp member).1
  have apart {u : ItemTable T} (untwinned : u.Untwinned) (c : Chain T)
      (stored : c ∈ u.table.slots) : (c.visible order.visibility).Pairwise
        fun x y => Item.sameFields x.item y.item = false :=
    ((List.pairwise_flatMap.mp untwinned).1 c stored).filter _
  refine twin.map_listing_eq wf wf' shown shown (apart untwinned) (apart untwinned') ?_ ?_
  · intro x member
    obtain ⟨held, shown⟩ := mem_sortedBy_iff.mp member
    obtain ⟨y, held', twins⟩ := twin.left x held
    exact ⟨y, mem_sortedBy_iff.mpr ⟨held', twins.priority ▸ shown⟩, twins⟩
  · intro y member
    obtain ⟨held, shown⟩ := mem_sortedBy_iff.mp member
    obtain ⟨x, held', twins⟩ := twin.right y held
    exact ⟨x, mem_sortedBy_iff.mpr ⟨held', twins.priority ▸ shown⟩, twins⟩

/-- What the tables hold differs in derivations and in the order of buckets and chains. -/
theorem perm_handles (twin : t.Twin t') (wf : t.WellFormed) (wf' : t'.WellFormed)
    (untwinned : t.Untwinned) (untwinned' : t'.Untwinned) :
    (t.handles.map (Item.underived ·.item)).Perm (t'.handles.map (Item.underived ·.item)) := by
  have listed (u : ItemTable T) : ((u.sortedBy { visibility := .all }).map
      (Item.underived ·.item)).Perm (u.handles.map (Item.underived ·.item)) := by
    have perm := (u.perm_sortedItems { visibility := .all }).map Item.underived
    rw [items, visible_all, sortedItems, List.map_map, List.map_map] at perm
    exact perm
  have same := twin.sortedBy_eq wf wf' untwinned untwinned' { visibility := .all }
  exact (listed t).symm.trans (same ▸ listed t')

theorem resolve_eq (twin : t.Twin t') (wf : t.WellFormed) (wf' : t'.WellFormed)
    (order : t.order = t'.order) (decided : t.Decided) :
    t.resolve.map (Item.underived ·.item) = t'.resolve.map (Item.underived ·.item) := by
  have among (c : Chain T) (x : Handle T) (won : x ∈ c.resolved) : x ∈ c.items :=
    (Chain.highest_of_mem_resolved won).1
  have apart (c : Chain T) : c.resolved.Pairwise
      fun x y => Item.sameFields x.item y.item = false :=
    c.pairwise_resolved.imp fun apart => eq_false_of_ne_true fun same =>
      apart (.of_sameFields same)
  have listed : t'.resolve =
      (t'.sortedChains t.order.case).flatMap fun c => sortHandles c.resolved := by
    rw [resolve, order]
  rw [listed]
  refine twin.map_listing_eq wf wf' among among (fun c _ => apart c) (fun c _ => apart c)
    (fun w won => ?_) fun v won' => ?_
  · obtain ⟨v, won', same⟩ := twin.exists_standing wf wf' won
    have held := (wf'.leads_of_mem_resolve won').held
    exact ⟨v, listed ▸ won',
      twin.twins_of_decided decided (wf.leads_of_mem_resolve won) held same⟩
  · rw [← listed] at won'
    obtain ⟨w, won, same⟩ := twin.symm.exists_standing wf' wf won'
    rw [← twin.bucket] at same
    have held := (wf'.leads_of_mem_resolve won').held
    exact ⟨w, won, twin.twins_of_decided decided (wf.leads_of_mem_resolve won) held same.symm⟩

end Twin

end ItemTable

end HostProfile
