import HostProfile.Proofs.KeyedTable.Removal
import HostProfile.Proofs.Outcome

/-!
# What the operations of a table do to its keys

Each operation keeps a table sound and is described by what it does to `find?`, so that nothing
above this file needs to know of buckets. A sound table always finds room: it is rebuilt into
enough buckets before a key could be refused, and the rebuilding itself refuses no key.
-/

namespace HostProfile

/-- Absorbing a slot with the same key leaves the key as it is. -/
class LawfulSlot (S : Type) [Slot S] : Prop where
  key_absorb : ∀ (slot occupant : S) (supply : Supply), Slot.key occupant = Slot.key slot →
    Slot.key (Slot.absorb slot occupant supply).state = Slot.key slot

namespace KeyedTable

variable {S : Type} {t t' : KeyedTable S}

theorem size_eq_length_slots (t : KeyedTable S) : t.size = t.slots.length := by
  rw [size, t.entries_eq, slots, List.length_filterMap_eq_countP, ← Array.countP_toList]
  rfl

theorem exists_empty (h : t.size < t.bucketCount) : ∃ i < t.bucketCount, t.slotAt i = none := by
  apply Decidable.byContradiction
  intro full
  refine Nat.lt_irrefl t.bucketCount (Nat.lt_of_le_of_lt (Nat.le_of_eq ?_) h)
  refine (t.entries_eq.trans (Array.countP_eq_size.mpr fun bucket member => ?_)).symm
  obtain ⟨i, lt, rfl⟩ := Array.mem_iff_getElem.mp member
  cases hi : t.buckets[i] with
  | some slot => rfl
  | none =>
      refine absurd ⟨i, lt, ?_⟩ full
      simp [slotAt, Array.getElem?_eq_getElem lt, hi]

@[simp] theorem slots_withBuckets (n : Nat) : (withBuckets n : KeyedTable S).slots = [] := by
  simp [slots, withBuckets, Array.toList_replicate, List.filterMap_replicate_of_none]

@[simp] theorem bucketCount_withBuckets (n : Nat) :
    (withBuckets n : KeyedTable S).bucketCount = max n 1 := Array.size_replicate

variable [Slot S]

/-- A table with an empty bucket has a bucket for every key. -/
theorem exists_probe (room : t.size < t.bucketCount) (key : String) :
    ∃ i, t.probe key = some i := by
  obtain ⟨i, lt, empty⟩ := exists_empty room
  cases hi : t.probe key with
  | none =>
      obtain ⟨a, ha, -⟩ := probe_eq_none_iff.mp hi i lt
      simp [empty] at ha
  | some j => exact ⟨j, rfl⟩

theorem sound_withBuckets (n : Nat) : (withBuckets n : KeyedTable S).Sound := by
  have no_slot {i : Nat} {a : S} : (withBuckets n : KeyedTable S).slotAt i ≠ some a := by
    intro h
    have member := mem_slots.mpr ⟨i, h⟩
    simp at member
  have lt : 0 < (withBuckets n : KeyedTable S).bucketCount := (withBuckets n).size_pos
  exact ⟨fun h => absurd h no_slot, fun h => absurd h no_slot, 0, lt, fun h => absurd h no_slot⟩

namespace Sound

theorem find?_ext (ht : t.Sound) {key : String} {found : Option S}
    (h : ∀ s, s ∈ t.slots ∧ Slot.key s = key ↔ found = some s) : t.find? key = found :=
  Option.ext fun s => by rw [ht.find?_eq_some_iff, h]

theorem nodup_keys (ht : t.Sound) : (t.slots.map Slot.key).Nodup := by
  rw [List.Nodup, List.pairwise_map, slots, List.pairwise_filterMap, List.pairwise_iff_getElem]
  intro i j hi hj lt a ha b hb same
  simp only [id_eq] at ha hb
  have slot_of {k : Nat} {c : S} (hk : k < t.buckets.toList.length)
      (hc : t.buckets.toList[k] = some c) : t.slotAt k = some c := by
    rw [Array.getElem_toList] at hc
    rw [slotAt, Array.getElem?_eq_getElem (by simpa using hk), hc]
    rfl
  exact Nat.ne_of_lt lt (ht.unique (slot_of hi ha) (slot_of hj hb) same)

theorem nodup_slots (ht : t.Sound) : t.slots.Nodup :=
  (List.pairwise_map.mp ht.nodup_keys).imp fun ne eq => ne (congrArg Slot.key eq)

/-- A table counts no key exactly when it finds none. -/
theorem size_eq_zero_iff (ht : t.Sound) : t.size = 0 ↔ ∀ key, t.find? key = none := by
  rw [size_eq_length_slots, List.length_eq_zero_iff, List.eq_nil_iff_forall_not_mem]
  constructor
  · exact fun none_held key => ht.find?_eq_none_iff.mpr fun s member => absurd member (none_held s)
  · exact fun none_found s member => ht.find?_eq_none_iff.mp (none_found _) s member rfl

theorem find?_withBuckets (n : Nat) (key : String) :
    (withBuckets n : KeyedTable S).find? key = none := by
  rw [(sound_withBuckets n).find?_eq_none_iff]
  simp

theorem find?_of_probe {key : String} {i : Nat} (hi : t.probe key = some i) :
    t.find? key = t.slotAt i := by
  rw [find?, hi]
  rfl

theorem find?_put (ht : t.Sound) {s : S} {i : Nat} (hi : t.probe (Slot.key s) = some i)
    (key : String) :
    (t.put i (some s)).find? key = if key = Slot.key s then some s else t.find? key := by
  refine (ht.put hi).find?_ext fun a => ?_
  rw [ht.mem_slots_put hi]
  split
  · next eq =>
    subst eq
    constructor
    · rintro ⟨rfl | ⟨-, ne⟩, same⟩
      · rfl
      · exact absurd same ne
    · intro eq
      obtain rfl := Option.some.inj eq
      exact ⟨.inl rfl, rfl⟩
  · next ne =>
    rw [ht.find?_eq_some_iff]
    constructor
    · rintro ⟨rfl | ⟨member, -⟩, rfl⟩
      · exact absurd rfl ne
      · exact ⟨member, rfl⟩
    · rintro ⟨member, rfl⟩
      exact ⟨.inr ⟨member, ne⟩, rfl⟩

theorem find?_removeAt (ht : t.Sound) {s : S} {i : Nat} (hs : t.slotAt i = some s)
    (key : String) :
    (t.removeAt i).find? key = if key = Slot.key s then none else t.find? key := by
  refine (ht.removeAt hs).find?_ext fun a => ?_
  rw [ht.mem_slots_removeAt hs]
  split
  · next eq => simp [eq, and_assoc]
  · next ne =>
    rw [ht.find?_eq_some_iff]
    constructor
    · rintro ⟨⟨member, -⟩, same⟩
      exact ⟨member, same⟩
    · rintro ⟨member, rfl⟩
      exact ⟨⟨member, ne⟩, rfl⟩

end Sound

/-- What a table holds of a slot: nothing when the slot is empty. -/
def kept (slot : S) : Option S := if Slot.isEmpty slot then none else some slot

theorem kept_of_isEmpty {s : S} (empty : Slot.isEmpty s = true) : kept s = none := if_pos empty

theorem kept_of_nonempty {s : S} (nonempty : Slot.isEmpty s = false) : kept s = some s := by
  rw [kept, nonempty]
  rfl

theorem kept_eq_some_iff {s a : S} : kept s = some a ↔ Slot.isEmpty s = false ∧ s = a := by
  cases empty : Slot.isEmpty s with
  | true => simp [kept_of_isEmpty empty]
  | false => simp [kept_of_nonempty empty]

theorem filter_some_eq_kept (s : S) : (some s).filter (!Slot.isEmpty ·) = kept s := by
  cases empty : Slot.isEmpty s with
  | true => simp [kept_of_isEmpty empty, empty]
  | false => simp [kept_of_nonempty empty, empty]

namespace Sound

theorem settle (ht : t.Sound) {s : S} {i : Nat} (hi : t.probe (Slot.key s) = some i) :
    (t.settle i s).Sound := by
  unfold KeyedTable.settle
  split
  · exact (ht.put hi).removeAt (slotAt_put_self (probe_eq_some_iff.mp hi).1 _)
  · exact ht.put hi

theorem find?_settle (ht : t.Sound) {s : S} {i : Nat} (hi : t.probe (Slot.key s) = some i)
    (key : String) :
    (t.settle i s).find? key = if key = Slot.key s then kept s else t.find? key := by
  have put_self := slotAt_put_self (probe_eq_some_iff.mp hi).1 (some s)
  unfold KeyedTable.settle kept
  split
  · rw [(ht.put hi).find?_removeAt put_self, ht.find?_put hi]
    split <;> rfl
  · rw [ht.find?_put hi]

end Sound

theorem place_of_empty {i : Nat} (empty : t.slotAt i = none) (slot : S) (supply : Supply) :
    place i slot t supply = ⟨.ok .added, t.put i (some slot), supply⟩ := by
  rw [place, empty]

theorem place_of_taken {i : Nat} {occupant : S} (taken : t.slotAt i = some occupant) (slot : S)
    (supply : Supply) :
    place i slot t supply = (Slot.absorb slot occupant supply).mapState (t.settle i) := by
  rw [place, taken]

/-! ## Rebuilding -/

/-- A slot with a new key is readmitted into an empty bucket, and so into no other slot. -/
theorem Sound.readmit_new (ht : t.Sound) {s : S} (room : t.size < t.bucketCount)
    (new : t.find? (Slot.key s) = none) (supply : Supply) :
    ∃ t', KeyedTable.readmit s t supply = ⟨.ok .added, t', supply⟩ ∧ t'.Sound ∧
      t'.bucketCount = t.bucketCount ∧ t'.size = t.size + 1 ∧
      ∀ key, t'.find? key = if key = Slot.key s then some s else t.find? key := by
  obtain ⟨i, hi⟩ := exists_probe room (Slot.key s)
  have empty : t.slotAt i = none := by rw [← Sound.find?_of_probe hi, new]
  have apart (a : S) (member : a ∈ t.slots) : Slot.key a ≠ Slot.key s :=
    ht.find?_eq_none_iff.mp new a member
  have distinct : (s :: t.slots).Nodup :=
    List.nodup_cons.mpr ⟨fun member => apart s member rfl, ht.nodup_slots⟩
  have perm : (t.put i (some s)).slots.Perm (s :: t.slots) := by
    apply (List.perm_ext_iff_of_nodup (ht.put hi).nodup_slots distinct).mpr
    intro a
    rw [ht.mem_slots_put hi, List.mem_cons]
    constructor
    · exact Or.imp_right And.left
    · exact Or.imp_right fun member => ⟨member, apart a member⟩
  refine ⟨t.put i (some s), ?_, ht.put hi, bucketCount_put t i _, ?_, ht.find?_put hi⟩
  · simp only [KeyedTable.readmit, hi, place_of_empty empty]
  · rw [size_eq_length_slots, size_eq_length_slots, perm.length_eq, List.length_cons]

/-- Slots with new keys can be put into a table one after another as long as there are buckets. -/
theorem Sound.readmit_all {slots : List S} (supply : Supply) :
    ∀ {t : KeyedTable S}, t.Sound → t.size + slots.length ≤ t.bucketCount →
      (slots.map Slot.key).Nodup → (∀ s ∈ slots, t.find? (Slot.key s) = none) →
      ∃ change t', Action.each KeyedTable.readmit slots t supply = ⟨.ok change, t', supply⟩ ∧
        t'.Sound ∧ t'.bucketCount = t.bucketCount ∧ t'.size = t.size + slots.length ∧
        (∀ s ∈ slots, t'.find? (Slot.key s) = some s) ∧
        ∀ key, key ∉ slots.map Slot.key → t'.find? key = t.find? key := by
  induction slots with
  | nil =>
      intro t ht _ _ _
      exact ⟨.unchanged, t, rfl, ht, rfl, rfl, by simp, fun _ _ => rfl⟩
  | cons s rest ih =>
      intro t ht room distinct new
      rw [List.map_cons, List.nodup_cons] at distinct
      rw [List.length_cons] at room
      obtain ⟨t₁, first, ht₁, buckets₁, size₁, find₁⟩ :=
        ht.readmit_new (s := s) (by omega) (new s List.mem_cons_self) supply
      have apart {a : S} (member : a ∈ rest) : Slot.key a ≠ Slot.key s := fun same =>
        distinct.1 (same ▸ List.mem_map_of_mem member)
      obtain ⟨change, t', others, ht', buckets', size', held, untouched⟩ :=
        ih ht₁ (by omega) distinct.2 fun a member => by
          rw [find₁, if_neg (apart member)]
          exact new a (List.mem_cons_of_mem s member)
      refine ⟨Change.added.aggregate change, t', ?_, ht', buckets'.trans buckets₁,
        by rw [List.length_cons]; omega, ?_, ?_⟩
      · rw [Action.each_cons, first, Outcome.andThen_of_ok rfl, others]
        rfl
      · intro a member
        rcases List.mem_cons.mp member with rfl | member
        · rw [untouched _ distinct.1, find₁, if_pos rfl]
        · exact held a member
      · intro key absent
        rw [List.map_cons, List.mem_cons, not_or] at absent
        rw [untouched key absent.2, find₁, if_neg absent.1]

/-- A table can be rebuilt into any number of buckets that has one for each key. -/
theorem Sound.rebuild (ht : t.Sound) {n : Nat} (room : t.size ≤ max n 1) (supply : Supply) :
    ∃ t', t.rebuild n supply = .ok t' ∧ t'.Sound ∧ t'.bucketCount = max n 1 ∧ t'.size = t.size ∧
      ∀ key, t'.find? key = t.find? key := by
  have none_yet : (withBuckets (max n 1) : KeyedTable S).size = 0 := by
    rw [size_eq_length_slots, slots_withBuckets, List.length_nil]
  obtain ⟨change, t', done, ht', buckets', size', held, others⟩ :=
    (sound_withBuckets (max n 1)).readmit_all supply
      (by rw [none_yet, bucketCount_withBuckets, ← size_eq_length_slots]; omega)
      ht.nodup_keys fun s _ => Sound.find?_withBuckets _ _
  rw [bucketCount_withBuckets] at buckets'
  rw [none_yet, ← size_eq_length_slots] at size'
  refine ⟨t', ?_, ht', by omega, by omega, fun key => ?_⟩
  · simp only [KeyedTable.rebuild, if_neg (Nat.not_lt.mpr room), done, Except.map]
  · cases hold : t.find? key with
    | some s =>
        obtain ⟨member, rfl⟩ := ht.find?_eq_some_iff.mp hold
        exact held s member
    | none =>
        have absent : key ∉ t.slots.map Slot.key := by
          rintro mapped
          obtain ⟨s, member, same⟩ := List.mem_map.mp mapped
          exact ht.find?_eq_none_iff.mp hold s member same
        rw [others key absent, Sound.find?_withBuckets]

theorem rebuild_eq_error {n : Nat} (full : max n 1 < t.size) (supply : Supply) :
    t.rebuild n supply = .error (.capacity ((t.slots.getLast?.map Slot.key).getD "") (max n 1)) :=
  if_pos full

/-! ## Upserts -/

/-- There is always a bucket for a key, if need be in the grown table. -/
theorem Sound.reserve (ht : t.Sound) (key : String) (supply : Supply) :
    ∃ t' i, t.reserve key supply = .ok (t', i) ∧ t'.Sound ∧ t'.probe key = some i ∧
      ∀ k, t'.find? k = t.find? k := by
  simp only [KeyedTable.reserve]
  cases hfits : (t.probe key).filter fun i => (t.slotAt i).isSome || t.load.below Load.limit with
  | some i => exact ⟨t, i, rfl, ht, (Option.filter_eq_some_iff.mp hfits).1, fun _ => rfl⟩
  | none =>
      have count : t.grownCount = 2 * t.size + 1 := by
        simp only [grownCount, Load.target, Nat.div_one, Nat.mul_comm]
      obtain ⟨grown, done, hgrown, buckets, size, same⟩ :=
        ht.rebuild (n := t.grownCount) (by omega) supply
      obtain ⟨i, hi⟩ := exists_probe (t := grown) (by omega) key
      refine ⟨grown, i, ?_, hgrown, hi, same⟩
      simp only [done, bind, Except.bind, hi, pure, Except.pure]

/-- An upsert acts on the slot of the key, or on the new slot where there is none, and touches no
other key. -/
theorem Sound.upsert {α : Type} (ht : t.Sound) {key : String} {create : S} (act : Action S α)
    (supply : Supply)
    (kept_key : Slot.key (act ((t.find? key).getD create) supply).state = key) :
    let done := act ((t.find? key).getD create) supply
    let after := KeyedTable.upsert key create act t supply
    after.result = done.result ∧ after.supply = done.supply ∧ after.state.Sound ∧
      ∀ k, after.state.find? k = if k = key then kept done.state else t.find? k := by
  obtain ⟨t', i, reserved, ht', hi, same⟩ := ht.reserve key supply
  have slot : t'.slotAt i = t.find? key := by rw [← same, Sound.find?_of_probe hi]
  have at_key : t'.probe (Slot.key (act ((t.find? key).getD create) supply).state) = some i := by
    rw [kept_key, hi]
  simp only [KeyedTable.upsert, reserved, slot, Outcome.mapState]
  refine ⟨trivial, trivial, ht'.settle at_key, ?_⟩
  intro k
  rw [ht'.find?_settle at_key, kept_key, same]

/-- Putting in a slot whose key is new. An empty one is not put in. -/
theorem Sound.mergeSlot_new (ht : t.Sound) {slot : S} (new : t.find? (Slot.key slot) = none)
    (supply : Supply) :
    let after := KeyedTable.mergeSlot slot t supply
    after.result = .ok (if Slot.isEmpty slot then .unchanged else .added) ∧
      after.supply = supply ∧ after.state.Sound ∧
      ∀ k, after.state.find? k = if k = Slot.key slot then kept slot else t.find? k := by
  have absent : t.contains (Slot.key slot) = false := by rw [contains, new]; rfl
  simp only [KeyedTable.mergeSlot, absent, Bool.not_false, Bool.and_true, kept]
  split
  · refine ⟨rfl, rfl, ht, ?_⟩
    intro k
    split
    · next eq => rw [eq, new]
    · rfl
  · obtain ⟨t', i, reserved, ht', hi, same⟩ := ht.reserve (Slot.key slot) supply
    have empty : t'.slotAt i = none := by rw [← Sound.find?_of_probe hi, same, new]
    simp only [reserved, place_of_empty empty]
    refine ⟨trivial, trivial, ht'.put hi, ?_⟩
    intro k
    rw [ht'.find?_put hi, same]

/-- Merging a slot into the one that has its key. -/
theorem Sound.mergeSlot_absorb (ht : t.Sound) {slot occupant : S}
    (found : t.find? (Slot.key slot) = some occupant) (supply : Supply)
    (kept_key : Slot.key (Slot.absorb slot occupant supply).state = Slot.key slot) :
    let done := Slot.absorb slot occupant supply
    let after := KeyedTable.mergeSlot slot t supply
    after.result = done.result ∧ after.supply = done.supply ∧ after.state.Sound ∧
      ∀ k, after.state.find? k = if k = Slot.key slot then kept done.state else t.find? k := by
  have there : t.contains (Slot.key slot) = true := by rw [contains, found]; rfl
  obtain ⟨t', i, reserved, ht', hi, same⟩ := ht.reserve (Slot.key slot) supply
  have taken : t'.slotAt i = some occupant := by rw [← Sound.find?_of_probe hi, same, found]
  have at_key : t'.probe (Slot.key (Slot.absorb slot occupant supply).state) = some i := by
    rw [kept_key, hi]
  simp only [KeyedTable.mergeSlot, there, Bool.not_true, Bool.and_false, Bool.false_eq_true,
    if_false, reserved, place_of_taken taken, Outcome.mapState]
  refine ⟨trivial, trivial, ht'.settle at_key, ?_⟩
  intro k
  rw [ht'.find?_settle at_key, kept_key, same]

/-! ## Removals -/

theorem remove_of_absent {key : String} (h : t.find? key = none) : t.remove key = none := by
  rw [remove]
  cases hi : t.probe key with
  | none => rfl
  | some i =>
      rw [Sound.find?_of_probe hi] at h
      simp [h]

theorem remove_of_slotAt {key : String} {i : Nat} {slot : S} (hi : t.probe key = some i)
    (hs : t.slotAt i = some slot) : t.remove key = some (slot, t.removeAt i) := by
  simp [remove, hi, hs]

/-- A key that is found has a bucket. -/
theorem slotAt_of_find? {key : String} {slot : S} (h : t.find? key = some slot) :
    ∃ i, t.probe key = some i ∧ t.slotAt i = some slot ∧ Slot.key slot = key := by
  obtain ⟨i, hi, hs⟩ := Option.bind_eq_some_iff.mp h
  exact ⟨i, hi, hs, not_blocked_iff.mp (probe_eq_some_iff.mp hi).2.1 slot hs⟩

/-- The slot that a removal hands out is the one that a search finds. -/
theorem remove_eq (t : KeyedTable S) (key : String) :
    t.remove key = (t.find? key).map fun slot => (slot, t.erase key) := by
  cases hold : t.find? key with
  | none => exact remove_of_absent hold
  | some slot =>
      obtain ⟨i, hi, hs, -⟩ := slotAt_of_find? hold
      simp only [erase, remove_of_slotAt hi hs, Option.map_some]

theorem Sound.erase (ht : t.Sound) (key : String) :
    (t.erase key).Sound ∧
      ∀ k, (t.erase key).find? k = if k = key then none else t.find? k := by
  cases hold : t.find? key with
  | none =>
      simp only [KeyedTable.erase, remove_of_absent hold]
      refine ⟨ht, ?_⟩
      intro k
      split
      · next eq => rw [eq, hold]
      · rfl
  | some slot =>
      obtain ⟨i, hi, hs, rfl⟩ := slotAt_of_find? hold
      simp only [KeyedTable.erase, remove_of_slotAt hi hs]
      exact ⟨ht.removeAt hs, ht.find?_removeAt hs⟩

theorem Sound.foldl_erase {t : KeyedTable S} (ht : t.Sound) (keys : List String) :
    (keys.foldl KeyedTable.erase t).Sound ∧
      ∀ k, (keys.foldl KeyedTable.erase t).find? k = if k ∈ keys then none else t.find? k := by
  induction keys generalizing t with
  | nil => exact ⟨ht, fun k => by simp⟩
  | cons key rest ih =>
      obtain ⟨sound, found⟩ := ht.erase key
      refine ⟨(ih sound).1, ?_⟩
      intro k
      rw [List.foldl_cons, (ih sound).2, found]
      by_cases first : k = key <;> by_cases later : k ∈ rest <;> simp [first, later]

/-- Retaining slots is filtering them. -/
theorem Sound.retain (ht : t.Sound) (keep : S → Bool) :
    (t.retain keep).1.Sound ∧ (t.retain keep).2 = (t.slots.filter (!keep ·)).length ∧
      ∀ k, (t.retain keep).1.find? k = (t.find? k).filter keep := by
  obtain ⟨sound, found⟩ :=
    ht.foldl_erase ((t.slots.filter (!keep ·)).map Slot.key)
  refine ⟨sound, List.length_map _, fun k => (found k).trans ?_⟩
  have doomed : k ∈ (t.slots.filter (!keep ·)).map Slot.key ↔
      ∃ s, t.find? k = some s ∧ keep s = false := by
    simp only [List.mem_map, List.mem_filter, Bool.not_eq_true', ht.find?_eq_some_iff]
    constructor
    · rintro ⟨s, ⟨member, out⟩, same⟩
      exact ⟨s, ⟨member, same⟩, out⟩
    · rintro ⟨s, ⟨member, same⟩, out⟩
      exact ⟨s, ⟨member, out⟩, same⟩
  simp only [doomed]
  cases hold : t.find? k with
  | none => simp
  | some s => cases hs : keep s <;> simp [Option.filter, hs]

end KeyedTable

end HostProfile
