import HostProfile.KeyedTable

/-!
# Finding keys in a table

A search walks round the buckets from the home of its key and stops at the first one that is empty
or holds the key. `probe_eq_some_iff` says so without the walk, in terms of the distance from the
home: every nearer bucket is blocked by another key.

A table is sound when no key is stored twice and all buckets between a slot and its home are taken,
so that the slot is found. That alone is not kept when slots are removed: in a full table it holds
of every placement whatever. What is kept is that there is one bucket over which no slot was ever
put past, namely the one that was taken last.
-/

namespace HostProfile.KeyedTable

variable {S : Type}

section Ring

variable {t : KeyedTable S} {i j k : Nat}

theorem home_lt (t : KeyedTable S) (key : String) : t.home key < t.bucketCount :=
  Nat.mod_lt _ t.size_pos

theorem next_lt (t : KeyedTable S) (i : Nat) : t.next i < t.bucketCount :=
  Nat.mod_lt _ t.size_pos

theorem distance_lt (t : KeyedTable S) (i j : Nat) : t.distance i j < t.bucketCount :=
  Nat.mod_lt _ t.size_pos

theorem next_eq (hi : i < t.bucketCount) :
    t.next i = if i + 1 = t.bucketCount then 0 else i + 1 := by
  unfold next
  split
  · next h => rw [h, Nat.mod_self]
  · next h => exact Nat.mod_eq_of_lt (by omega)

theorem distance_eq (hi : i < t.bucketCount) (hj : j < t.bucketCount) :
    t.distance i j = if i ≤ j then j - i else j + t.bucketCount - i := by
  unfold distance
  split
  · next h =>
    rw [show j + t.bucketCount - i = j - i + t.bucketCount by omega, Nat.add_mod_right]
    exact Nat.mod_eq_of_lt (by omega)
  · next h => exact Nat.mod_eq_of_lt (by omega)

theorem distance_self (hi : i < t.bucketCount) : t.distance i i = 0 := by
  rw [distance_eq hi hi, if_pos (Nat.le_refl i), Nat.sub_self]

theorem eq_of_distance_eq (hi : i < t.bucketCount) (hj : j < t.bucketCount)
    (hk : k < t.bucketCount) (h : t.distance i j = t.distance i k) : j = k := by
  rw [distance_eq hi hj, distance_eq hi hk] at h
  split at h <;> split at h <;> omega

theorem distance_next (hi : i < t.bucketCount) (hj : j < t.bucketCount)
    (h : t.distance i j + 1 < t.bucketCount) : t.distance i (t.next j) = t.distance i j + 1 := by
  rw [distance_eq hi hj] at h ⊢
  rw [distance_eq hi (t.next_lt j), next_eq hj]
  split at h <;> split <;> split <;> omega

/-- Which of two buckets comes first on the way round from `i`, read off from their distances from
any bucket `s`. -/
theorem distance_lt_iff {s : Nat} (hs : s < t.bucketCount)
    (hi : i < t.bucketCount) (hj : j < t.bucketCount) (hk : k < t.bucketCount) :
    t.distance i j < t.distance i k ↔
      t.distance s i ≤ t.distance s j ∧ t.distance s j < t.distance s k ∨
      t.distance s j < t.distance s k ∧ t.distance s k < t.distance s i ∨
      t.distance s k < t.distance s i ∧ t.distance s i ≤ t.distance s j := by
  rw [distance_eq hi hj, distance_eq hi hk, distance_eq hs hi, distance_eq hs hj,
    distance_eq hs hk]
  split <;> split <;> split <;> split <;> split <;> omega

end Ring

theorem lt_of_slotAt {t : KeyedTable S} {i : Nat} {s : S} (h : t.slotAt i = some s) :
    i < t.bucketCount := by
  apply Nat.lt_of_not_le
  intro hi
  have empty : t.buckets[i]? = none := Array.getElem?_eq_none hi
  simp [slotAt, empty] at h

theorem mem_slots {t : KeyedTable S} {s : S} : s ∈ t.slots ↔ ∃ i, t.slotAt i = some s := by
  simp only [slots, slotAt, List.mem_filterMap, id_eq, exists_eq_right, Array.mem_toList_iff,
    Array.mem_iff_getElem?]
  constructor
  · rintro ⟨i, h⟩
    exact ⟨i, by rw [h]; rfl⟩
  · rintro ⟨i, h⟩
    exact ⟨i, Option.join_eq_some_iff.mp h⟩

@[simp] theorem bucketCount_put (t : KeyedTable S) (i : Nat) (content : Option S) :
    (t.put i content).bucketCount = t.bucketCount := Array.size_setIfInBounds

@[simp] theorem home_put (t : KeyedTable S) (i : Nat) (content : Option S) (key : String) :
    (t.put i content).home key = t.home key := by
  simp only [home, bucketCount_put]

@[simp] theorem distance_put (t : KeyedTable S) (i : Nat) (content : Option S) (j k : Nat) :
    (t.put i content).distance j k = t.distance j k := by
  simp only [distance, bucketCount_put]

theorem slotAt_put {t : KeyedTable S} {i : Nat} (hi : i < t.bucketCount) (content : Option S)
    (j : Nat) : (t.put i content).slotAt j = if j = i then content else t.slotAt j := by
  simp only [slotAt, put, Array.getElem?_setIfInBounds, eq_comm (a := i)]
  split
  · rw [if_pos (show i < t.buckets.size from hi), Option.join_some]
  · rfl

theorem slotAt_put_self {t : KeyedTable S} {i : Nat} (hi : i < t.bucketCount)
    (content : Option S) : (t.put i content).slotAt i = content := by
  rw [slotAt_put hi, if_pos rfl]

theorem slotAt_put_of_ne {t : KeyedTable S} {i j : Nat} (hi : i < t.bucketCount)
    (content : Option S) (h : j ≠ i) : (t.put i content).slotAt j = t.slotAt j := by
  rw [slotAt_put hi, if_neg h]

/-- A slot found after another was put is that one, or was there before. -/
theorem of_slotAt_put {t : KeyedTable S} {i j : Nat} {s a : S} (lt : i < t.bucketCount)
    (ha : (t.put i (some s)).slotAt j = some a) :
    j = i ∧ a = s ∨ j ≠ i ∧ t.slotAt j = some a := by
  rw [slotAt_put lt] at ha
  split at ha
  · next eq => exact .inl ⟨eq, (Option.some.inj ha).symm⟩
  · next ne => exact .inr ⟨ne, ha⟩

variable [Slot S]

/-- The bucket is of no use for the key: it holds a slot with another one. -/
def Blocked (t : KeyedTable S) (key : String) (i : Nat) : Prop :=
  ∃ s, t.slotAt i = some s ∧ Slot.key s ≠ key

theorem not_blocked_iff {t : KeyedTable S} {key : String} {i : Nat} :
    ¬ t.Blocked key i ↔ ∀ s, t.slotAt i = some s → Slot.key s = key := by
  simp [Blocked]

/-- A search that has passed over `d` buckets from the home of the key on ends at the first one
that is not blocked. -/
theorem seek_spec {t : KeyedTable S} {key : String} {steps : Nat} :
    ∀ {i : Nat}, i < t.bucketCount → t.distance (t.home key) i + steps = t.bucketCount →
      (∀ k < t.bucketCount, t.distance (t.home key) k < t.distance (t.home key) i →
        t.Blocked key k) →
      match t.seek key steps i with
      | some j => j < t.bucketCount ∧ ¬ t.Blocked key j ∧
          ∀ k < t.bucketCount, t.distance (t.home key) k < t.distance (t.home key) j →
            t.Blocked key k
      | none => ∀ k < t.bucketCount, t.Blocked key k := by
  induction steps with
  | zero =>
      intro i hi hsum passed
      have := t.distance_lt (t.home key) i
      omega
  | succ steps ih =>
      intro i hi hsum passed
      unfold seek
      cases hslot : t.slotAt i with
      | none =>
          exact ⟨hi, by simp [Blocked, hslot], passed⟩
      | some s =>
          by_cases hs : Slot.key s = key
          · simp only [hs, BEq.rfl, if_true]
            exact ⟨hi, by simp [Blocked, hslot, hs], passed⟩
          · simp only [beq_iff_eq, hs, if_false]
            have passed' : ∀ k < t.bucketCount,
                t.distance (t.home key) k < t.distance (t.home key) i + 1 → t.Blocked key k := by
              intro k hk hlt
              rcases Nat.lt_succ_iff_lt_or_eq.mp hlt with before | same
              · exact passed k hk before
              · rw [eq_of_distance_eq (t.home_lt key) hk hi same]
                exact ⟨s, hslot, hs⟩
            cases steps with
            | zero =>
                intro k hk
                exact passed' k hk (by have := t.distance_lt (t.home key) k; omega)
            | succ steps =>
                have step := distance_next (t.home_lt key) hi (by omega)
                exact ih (t.next_lt i) (by omega) (by rwa [step])

theorem probe_spec (t : KeyedTable S) (key : String) :
    match t.probe key with
    | some j => j < t.bucketCount ∧ ¬ t.Blocked key j ∧
        ∀ k < t.bucketCount, t.distance (t.home key) k < t.distance (t.home key) j →
          t.Blocked key k
    | none => ∀ k < t.bucketCount, t.Blocked key k := by
  refine seek_spec (t.home_lt key) ?_ ?_
  · rw [distance_self (t.home_lt key), Nat.zero_add]
  · intro k hk hlt
    rw [distance_self (t.home_lt key)] at hlt
    omega

/-- The bucket of a key is the first one from its home on that is not blocked. -/
theorem probe_eq_some_iff {t : KeyedTable S} {key : String} {i : Nat} :
    t.probe key = some i ↔ i < t.bucketCount ∧ ¬ t.Blocked key i ∧
      ∀ k < t.bucketCount, t.distance (t.home key) k < t.distance (t.home key) i →
        t.Blocked key k := by
  have spec := t.probe_spec key
  constructor
  · intro h
    rwa [h] at spec
  · rintro ⟨hi, hopen, passed⟩
    cases hp : t.probe key with
    | none =>
        rw [hp] at spec
        exact absurd (spec i hi) hopen
    | some j =>
        rw [hp] at spec
        obtain ⟨hj, jopen, jpassed⟩ := spec
        rcases Nat.lt_trichotomy (t.distance (t.home key) i) (t.distance (t.home key) j)
          with lt | eq | gt
        · exact absurd (jpassed i hi lt) hopen
        · rw [eq_of_distance_eq (t.home_lt key) hi hj eq]
        · exact absurd (passed j hj gt) jopen

theorem probe_eq_none_iff {t : KeyedTable S} {key : String} :
    t.probe key = none ↔ ∀ k < t.bucketCount, t.Blocked key k := by
  have spec := t.probe_spec key
  constructor
  · intro h
    rwa [h] at spec
  · intro h
    cases hp : t.probe key with
    | none => rfl
    | some j =>
        rw [hp] at spec
        exact absurd (h j spec.1) spec.2.1

/-- No key is stored twice, and each can be found: all buckets between the home of a slot and the
slot are taken. In a full table that says nothing about the place of a slot, so there is also a
bucket over which no slot was ever put past, the one that was taken last. -/
structure Sound (t : KeyedTable S) : Prop where
  unique : ∀ {i j : Nat} {a b : S}, t.slotAt i = some a → t.slotAt j = some b →
    Slot.key a = Slot.key b → i = j
  reach : ∀ {i : Nat} {a : S}, t.slotAt i = some a → ∀ k < t.bucketCount,
    t.distance (t.home (Slot.key a)) k < t.distance (t.home (Slot.key a)) i →
      (t.slotAt k).isSome
  last : ∃ e < t.bucketCount, ∀ {i : Nat} {a : S}, t.slotAt i = some a →
    t.distance (t.home (Slot.key a)) i ≤ t.distance (t.home (Slot.key a)) e

/-- The last bucket taken matters for a full table only: no way leads over an empty bucket. -/
theorem Sound.of_empty {t : KeyedTable S} {e : Nat}
    (unique : ∀ {i j : Nat} {a b : S}, t.slotAt i = some a → t.slotAt j = some b →
      Slot.key a = Slot.key b → i = j)
    (reach : ∀ {i : Nat} {a : S}, t.slotAt i = some a → ∀ k < t.bucketCount,
      t.distance (t.home (Slot.key a)) k < t.distance (t.home (Slot.key a)) i →
        (t.slotAt k).isSome)
    (he : e < t.bucketCount) (empty : t.slotAt e = none) : t.Sound where
  unique := unique
  reach := reach
  last := by
    refine ⟨e, he, fun {i a} ha => Nat.le_of_not_lt ?_⟩
    intro passes
    have taken := reach ha e he passes
    simp [empty] at taken

namespace Sound

variable {t : KeyedTable S} {s : S} {key : String} {i : Nat}

theorem probe_of_slotAt (ht : t.Sound) (hs : t.slotAt i = some s) :
    t.probe (Slot.key s) = some i := by
  rw [probe_eq_some_iff]
  refine ⟨lt_of_slotAt hs, ?_, ?_⟩
  · rw [not_blocked_iff]
    intro a ha
    rw [hs] at ha
    rw [Option.some.inj ha]
  · intro k hk before
    obtain ⟨a, ha⟩ := Option.isSome_iff_exists.mp (ht.reach hs k hk before)
    refine ⟨a, ha, ?_⟩
    intro same
    rw [ht.unique ha hs same] at before
    exact Nat.lt_irrefl _ before

theorem find?_eq_some_iff (ht : t.Sound) :
    t.find? key = some s ↔ s ∈ t.slots ∧ Slot.key s = key := by
  simp only [find?, Option.bind_eq_bind, Option.bind_eq_some_iff, mem_slots]
  constructor
  · rintro ⟨i, hi, hs⟩
    exact ⟨⟨i, hs⟩, not_blocked_iff.mp (probe_eq_some_iff.mp hi).2.1 s hs⟩
  · rintro ⟨⟨i, hs⟩, rfl⟩
    exact ⟨i, ht.probe_of_slotAt hs, hs⟩

theorem find?_eq_none_iff (ht : t.Sound) :
    t.find? key = none ↔ ∀ s ∈ t.slots, Slot.key s ≠ key := by
  rw [Option.eq_none_iff_forall_ne_some]
  simp only [ne_eq, ht.find?_eq_some_iff, not_and]

/-- A key in the bucket that its search ends at has that bucket, and an empty one belongs to no
key that is stored. -/
theorem eq_of_probe (ht : t.Sound) (hi : t.probe key = some i) {j : Nat}
    (hs : t.slotAt j = some s) (hkey : Slot.key s = key) : j = i := by
  rw [← hkey, ht.probe_of_slotAt hs] at hi
  exact Option.some.inj hi

/-- A bucket over which no slot was put past can still be named after a slot was put: the one taken
last is the new one, if it was empty, for then no way led over it. -/
theorem last_put (ht : t.Sound) (hi : t.probe (Slot.key s) = some i) :
    ∃ e < t.bucketCount, ∀ {j : Nat} {a : S}, (t.put i (some s)).slotAt j = some a →
      t.distance (t.home (Slot.key a)) j ≤ t.distance (t.home (Slot.key a)) e := by
  obtain ⟨lt, isOpen, -⟩ := probe_eq_some_iff.mp hi
  cases hold : t.slotAt i with
  | none =>
      refine ⟨i, lt, fun {j a} ha => ?_⟩
      obtain ⟨rfl, -⟩ | ⟨-, was⟩ := of_slotAt_put lt ha
      · exact Nat.le_refl _
      · apply Nat.le_of_not_lt
        intro passes
        have taken := ht.reach was i lt passes
        simp [hold] at taken
  | some old =>
      obtain ⟨e, he, hlast⟩ := ht.last
      refine ⟨e, he, fun {j a} ha => ?_⟩
      obtain ⟨rfl, rfl⟩ | ⟨-, was⟩ := of_slotAt_put lt ha
      · rw [← not_blocked_iff.mp isOpen old hold]
        exact hlast hold
      · exact hlast was

/-- A slot may be put where the search for its key ends, whether the key is new or not. -/
theorem put (ht : t.Sound) (hi : t.probe (Slot.key s) = some i) : (t.put i (some s)).Sound := by
  obtain ⟨lt, isOpen, passed⟩ := probe_eq_some_iff.mp hi
  have alone {j : Nat} {a : S} (hj : j ≠ i) (ha : t.slotAt j = some a) :
      Slot.key a ≠ Slot.key s := fun same => hj (ht.eq_of_probe hi ha same)
  have still_taken {k : Nat} (hk : (t.slotAt k).isSome) :
      ((t.put i (some s)).slotAt k).isSome := by
    rw [slotAt_put lt]
    split
    · rfl
    · exact hk
  refine ⟨?_, ?_, ?_⟩
  · intro j k a b ha hb same
    obtain ⟨rfl, rfl⟩ | ⟨hj, was⟩ := of_slotAt_put lt ha <;>
      obtain ⟨rfl, rfl⟩ | ⟨hk, was'⟩ := of_slotAt_put lt hb
    · rfl
    · exact absurd same.symm (alone hk was')
    · exact absurd same (alone hj was)
    · exact ht.unique was was' same
  · intro j a ha k hk before
    simp only [home_put, distance_put, bucketCount_put] at hk before
    obtain ⟨rfl, rfl⟩ | ⟨-, was⟩ := of_slotAt_put lt ha
    · obtain ⟨b, hb, -⟩ := passed k hk before
      exact still_taken (by rw [hb]; rfl)
    · exact still_taken (ht.reach was k hk before)
  · obtain ⟨e, he, hlast⟩ := ht.last_put hi
    refine ⟨e, by simpa using he, fun {j a} ha => ?_⟩
    simpa only [home_put, distance_put] using hlast ha

theorem mem_slots_put (ht : t.Sound) (hi : t.probe (Slot.key s) = some i) {a : S} :
    a ∈ (t.put i (some s)).slots ↔ a = s ∨ a ∈ t.slots ∧ Slot.key a ≠ Slot.key s := by
  obtain ⟨lt, isOpen, -⟩ := probe_eq_some_iff.mp hi
  simp only [mem_slots]
  constructor
  · rintro ⟨j, hj⟩
    by_cases eq : j = i
    · rw [eq, slotAt_put_self lt] at hj
      exact .inl (Option.some.inj hj).symm
    · rw [slotAt_put_of_ne lt _ eq] at hj
      exact .inr ⟨⟨j, hj⟩, fun same => eq (ht.eq_of_probe hi hj same)⟩
  · rintro (rfl | ⟨⟨j, hj⟩, ne⟩)
    · exact ⟨i, slotAt_put_self lt _⟩
    · have neq : j ≠ i := fun eq => ne (not_blocked_iff.mp isOpen a (eq ▸ hj))
      exact ⟨j, by rwa [slotAt_put_of_ne lt _ neq]⟩

end Sound

end HostProfile.KeyedTable
