import HostProfile.Proofs.KeyedTable.Probing

/-!
# Taking keys out of a table

Emptying a bucket leaves a hole, and the slots behind it are moved back into it one by one. The
invariant of that scan is `Gap`: only slots that the scan has still to look at can have a way over
the hole. It carries the bucket taken last along, without which a scan that goes round a full table
could leave a slot behind that can no longer be found.
-/

namespace HostProfile.KeyedTable

variable {S : Type}

/-- What a slot moved from bucket `j` to bucket `i` leaves in the buckets. -/
theorem slotAt_move {t : KeyedTable S} {i j : Nat} (hi : i < t.bucketCount)
    (hj : j < t.bucketCount) (s : S) (k : Nat) :
    ((t.put i (some s)).put j none).slotAt k =
      if k = j then none else if k = i then some s else t.slotAt k := by
  rw [slotAt_put (by simpa using hj), slotAt_put hi]

/-- A slot found after a move is the one that was moved, or was there before. -/
theorem of_slotAt_move {t : KeyedTable S} {i j k : Nat} {s a : S} (hi : i < t.bucketCount)
    (hj : j < t.bucketCount) (ha : ((t.put i (some s)).put j none).slotAt k = some a) :
    k ≠ j ∧ (k = i ∧ a = s ∨ t.slotAt k = some a) := by
  rw [slotAt_move hi hj] at ha
  split at ha
  · cases ha
  · next ne =>
    split at ha
    · next eq => exact ⟨ne, .inl ⟨eq, (Option.some.inj ha).symm⟩⟩
    · exact ⟨ne, .inr ha⟩

/-- Moving a slot into an empty bucket loses none. -/
theorem mem_slots_move {t : KeyedTable S} {i j : Nat} {s a : S} (hi : i < t.bucketCount)
    (hj : j < t.bucketCount) (empty : t.slotAt i = none) (hs : t.slotAt j = some s) :
    a ∈ ((t.put i (some s)).put j none).slots ↔ a ∈ t.slots := by
  have ne : i ≠ j := by
    rintro rfl
    simp [empty] at hs
  simp only [mem_slots, slotAt_move hi hj]
  constructor
  · rintro ⟨k, hk⟩
    split at hk
    · cases hk
    · split at hk
      · exact ⟨j, hs.trans hk⟩
      · exact ⟨k, hk⟩
  · rintro ⟨k, hk⟩
    by_cases eq : k = j
    · subst eq
      exact ⟨i, by rw [if_neg ne, if_pos rfl, ← hs, hk]⟩
    · refine ⟨k, ?_⟩
      rw [if_neg eq, if_neg (fun eq' => ?_), hk]
      rw [eq', empty] at hk
      cases hk

variable [Slot S]

/-- A table with a hole, while the slots behind it are moved back. The buckets from `start` on up
to `i` have been looked at, `steps` are left. A slot whose way leads over the hole is among those
that are left, and the slot last placed is not between `start` and the hole. -/
structure Gap (t : KeyedTable S) (e start hole i steps : Nat) : Prop where
  e_lt : e < t.bucketCount
  start_lt : start < t.bucketCount
  hole_lt : hole < t.bucketCount
  i_lt : i < t.bucketCount
  empty : t.slotAt hole = none
  unique : ∀ {j k : Nat} {a b : S}, t.slotAt j = some a → t.slotAt k = some b →
    Slot.key a = Slot.key b → j = k
  reach : ∀ {j : Nat} {a : S}, t.slotAt j = some a → ∀ k < t.bucketCount,
    t.distance (t.home (Slot.key a)) k < t.distance (t.home (Slot.key a)) j →
      (t.slotAt k).isSome ∨ k = hole
  last : ∀ {j : Nat} {a : S}, t.slotAt j = some a →
    t.distance (t.home (Slot.key a)) j ≤ t.distance (t.home (Slot.key a)) e
  pending : ∀ {j : Nat} {a : S}, t.slotAt j = some a →
    t.distance (t.home (Slot.key a)) hole < t.distance (t.home (Slot.key a)) j →
      steps ≠ 0 ∧ t.distance start i ≤ t.distance start j
  seen : steps ≠ 0 → t.distance start i + steps = t.bucketCount
  behind : steps ≠ 0 → t.distance start hole < t.distance start i
  before_last : t.distance start hole ≤ t.distance start e

namespace Gap

variable {t : KeyedTable S} {e start hole i steps : Nat}

/-- Once no way leads over the hole any more, the hole may stay. -/
theorem sound (h : t.Gap e start hole i steps)
    (clear : ∀ {j : Nat} {a : S}, t.slotAt j = some a →
      ¬ t.distance (t.home (Slot.key a)) hole < t.distance (t.home (Slot.key a)) j) :
    t.Sound := by
  refine .of_empty h.unique (fun {j a} ha k hk before => ?_) h.hole_lt h.empty
  rcases h.reach ha k hk before with taken | rfl
  · exact taken
  · exact absurd before (clear ha)

/-- The slots behind an empty bucket have no way that leads over the hole before it. -/
theorem sound_of_empty (h : t.Gap e start hole i steps) (hsteps : steps ≠ 0)
    (empty : t.slotAt i = none) : t.Sound := by
  refine h.sound fun {j a} ha passes => ?_
  have hj := lt_of_slotAt ha
  have hhome := t.home_lt (Slot.key a)
  have left := (h.pending ha passes).2
  have behind := h.behind hsteps
  have ne : t.distance start i ≠ t.distance start j := by
    intro eq
    rw [eq_of_distance_eq h.start_lt h.i_lt hj eq, ha] at empty
    cases empty
  have way : t.distance (t.home (Slot.key a)) i < t.distance (t.home (Slot.key a)) j := by
    rw [distance_lt_iff h.start_lt hhome h.hole_lt hj] at passes
    rw [distance_lt_iff h.start_lt hhome h.i_lt hj]
    omega
  rcases h.reach ha i h.i_lt way with taken | eq
  · simp [empty] at taken
  · rw [eq] at behind
    exact Nat.lt_irrefl _ behind

/-- A slot whose way does not lead over the hole stays where it is. -/
theorem skip (h : t.Gap e start hole i (steps + 1)) {s : S} (hs : t.slotAt i = some s)
    (stays : ¬ t.distance (t.home (Slot.key s)) hole < t.distance (t.home (Slot.key s)) i) :
    t.Gap e start hole (t.next i) steps := by
  have seen := h.seen (Nat.succ_ne_zero steps)
  have behind := h.behind (Nat.succ_ne_zero steps)
  have next (hsteps : steps ≠ 0) : t.distance start (t.next i) = t.distance start i + 1 :=
    distance_next h.start_lt h.i_lt (by omega)
  refine { h with
    i_lt := t.next_lt i
    pending := fun {j a} ha passes => ?_
    seen := fun hsteps => by rw [next hsteps]; omega
    behind := fun hsteps => by rw [next hsteps]; omega }
  have ne : t.distance start i ≠ t.distance start j := by
    intro eq
    obtain rfl := eq_of_distance_eq h.start_lt h.i_lt (lt_of_slotAt ha) eq
    rw [hs] at ha
    obtain rfl := Option.some.inj ha
    exact stays passes
  have left := (h.pending ha passes).2
  have inside := t.distance_lt start j
  have hsteps : steps ≠ 0 := by omega
  exact ⟨hsteps, by rw [next hsteps]; omega⟩

/-- The way of a slot leads over no bucket behind the one taken last, and so a scan that meets a
slot with a way over the hole has not passed that one yet. -/
theorem not_passed (h : t.Gap e start hole i steps) {s : S} (hs : t.slotAt i = some s)
    (passes : t.distance (t.home (Slot.key s)) hole < t.distance (t.home (Slot.key s)) i) :
    t.distance start i ≤ t.distance start e := by
  have hhome := t.home_lt (Slot.key s)
  have hlast := h.last hs
  have before := h.before_last
  rw [distance_lt_iff h.start_lt hhome h.hole_lt h.i_lt] at passes
  rw [← Nat.not_lt, distance_lt_iff h.start_lt hhome h.e_lt h.i_lt] at hlast
  omega

/-- A slot whose way leads over the hole fills it, and its bucket is the hole from then on. As the
scan has not passed the bucket taken last, no slot before it has a way over the new hole. -/
theorem move (h : t.Gap e start hole i (steps + 1)) {s : S} (hs : t.slotAt i = some s)
    (passes : t.distance (t.home (Slot.key s)) hole < t.distance (t.home (Slot.key s)) i) :
    ((t.put hole (some s)).put i none).Gap e start i (t.next i) steps := by
  have seen := h.seen (Nat.succ_ne_zero steps)
  have behind := h.behind (Nat.succ_ne_zero steps)
  have next (hsteps : steps ≠ 0) : t.distance start (t.next i) = t.distance start i + 1 :=
    distance_next h.start_lt h.i_lt (by omega)
  have moved {j : Nat} {a : S} (ha : ((t.put hole (some s)).put i none).slotAt j = some a) :
      j ≠ i ∧ (j = hole ∧ a = s ∨ t.slotAt j = some a) := of_slotAt_move h.hole_lt h.i_lt ha
  have not_passed := h.not_passed hs passes
  refine ⟨by simpa using h.e_lt, by simpa using h.start_lt, by simpa using h.i_lt,
    by simpa using t.next_lt i, by rw [slotAt_move h.hole_lt h.i_lt, if_pos rfl],
    ?_, ?_, ?_, ?_, ?_, ?_, ?_⟩
  · intro j k a b ha hb same
    obtain ⟨hj, ⟨rfl, rfl⟩ | was⟩ := moved ha <;> obtain ⟨hk, ⟨rfl, rfl⟩ | was'⟩ := moved hb
    · rfl
    · exact absurd (h.unique was' hs same.symm) hk
    · exact absurd (h.unique was hs same) hj
    · exact h.unique was was' same
  · intro j a ha k hk before
    simp only [home_put, distance_put, bucketCount_put] at hk before
    have taken (held : (t.slotAt k).isSome ∨ k = hole) :
        (((t.put hole (some s)).put i none).slotAt k).isSome ∨ k = i := by
      rw [slotAt_move h.hole_lt h.i_lt]
      split
      · next eq => exact .inr eq
      · split
        · exact .inl rfl
        · next ne => exact .inl (held.resolve_right ne)
    obtain ⟨-, ⟨rfl, rfl⟩ | ha⟩ := moved ha
    · exact taken (h.reach hs k hk (Nat.lt_trans before passes))
    · exact taken (h.reach ha k hk before)
  · intro j a ha
    simp only [home_put, distance_put]
    obtain ⟨-, ⟨rfl, rfl⟩ | ha⟩ := moved ha
    · exact Nat.le_trans (Nat.le_of_lt passes) (h.last hs)
    · exact h.last ha
  · intro j a ha before
    simp only [home_put, distance_put] at before ⊢
    obtain ⟨hj, ⟨rfl, rfl⟩ | ha⟩ := moved ha
    · exact absurd before (Nat.lt_asymm passes)
    · -- The way of the slot does not lead past `e`, so it cannot have led round to bucket `i`.
      have hlast := h.last ha
      have inside := t.distance_lt start j
      have hhome := t.home_lt (Slot.key a)
      have lt := lt_of_slotAt ha
      have ne : t.distance start i ≠ t.distance start j := fun eq =>
        hj (eq_of_distance_eq h.start_lt h.i_lt lt eq).symm
      rw [distance_lt_iff h.start_lt hhome h.i_lt lt] at before
      rw [← Nat.not_lt, distance_lt_iff h.start_lt hhome h.e_lt lt] at hlast
      have hsteps : steps ≠ 0 := by omega
      exact ⟨hsteps, by rw [next hsteps]; omega⟩
  · intro hsteps
    simp only [distance_put, bucketCount_put, next hsteps]
    omega
  · intro hsteps
    simp only [distance_put, next hsteps]
    omega
  · simpa only [distance_put] using not_passed

end Gap

/-- However the scan ends, the table is sound then. -/
theorem Gap.closeGap {steps : Nat} :
    ∀ {t : KeyedTable S} {e start hole i : Nat}, t.Gap e start hole i steps →
      (t.closeGap steps hole i).Sound := by
  induction steps with
  | zero =>
      intro t e start hole i h
      exact h.sound fun ha passes => (h.pending ha passes).1 rfl
  | succ steps ih =>
      intro t e start hole i h
      unfold KeyedTable.closeGap
      cases hs : t.slotAt i with
      | none => exact h.sound_of_empty (Nat.succ_ne_zero steps) hs
      | some s =>
          simp only
          split
          · next passes => exact ih (h.move hs passes)
          · next stays => exact ih (h.skip hs stays)

theorem Gap.mem_slots_closeGap {steps : Nat} {a : S} :
    ∀ {t : KeyedTable S} {e start hole i : Nat}, t.Gap e start hole i steps →
      (a ∈ (t.closeGap steps hole i).slots ↔ a ∈ t.slots) := by
  induction steps with
  | zero =>
      intro t e start hole i h
      rfl
  | succ steps ih =>
      intro t e start hole i h
      unfold KeyedTable.closeGap
      cases hs : t.slotAt i with
      | none => rfl
      | some s =>
          simp only
          split
          · next passes =>
            rw [ih (h.move hs passes), mem_slots_move h.hole_lt h.i_lt h.empty hs]
          · next stays => exact ih (h.skip hs stays)

namespace Sound

variable {t : KeyedTable S} {s : S} {i : Nat}

/-- Taking a slot out leaves a hole, and every other slot is still to be looked at. -/
theorem gap (ht : t.Sound) (hs : t.slotAt i = some s) :
    ∃ e, (t.put i none).Gap e i i (t.next i) (t.bucketCount - 1) := by
  obtain ⟨e, he, hlast⟩ := ht.last
  have hi := lt_of_slotAt hs
  have others {j : Nat} {a : S} (ha : (t.put i none).slotAt j = some a) :
      j ≠ i ∧ t.slotAt j = some a := by
    rw [slotAt_put hi] at ha
    split at ha
    · cases ha
    · next ne => exact ⟨ne, ha⟩
  have next (hsteps : t.bucketCount - 1 ≠ 0) : t.distance i (t.next i) = 1 := by
    rw [distance_next hi hi (by rw [distance_self hi]; omega), distance_self hi]
  refine ⟨e, by simpa using he, by simpa using hi, by simpa using hi, by simpa using t.next_lt i,
    slotAt_put_self hi _, ?_, ?_, ?_, ?_, ?_, ?_, ?_⟩
  · intro j k a b ha hb same
    exact ht.unique (others ha).2 (others hb).2 same
  · intro j a ha k hk before
    simp only [home_put, distance_put, bucketCount_put] at hk before
    by_cases eq : k = i
    · exact .inr eq
    · rw [slotAt_put_of_ne hi _ eq]
      exact .inl (ht.reach (others ha).2 k hk before)
  · intro j a ha
    simpa only [home_put, distance_put] using hlast (others ha).2
  · intro j a ha _
    obtain ⟨ne, was⟩ := others ha
    have hj := lt_of_slotAt was
    have hsteps : t.bucketCount - 1 ≠ 0 := by omega
    refine ⟨hsteps, ?_⟩
    have apart : t.distance i i ≠ t.distance i j := fun eq =>
      ne (eq_of_distance_eq hi hi hj eq).symm
    rw [distance_self hi] at apart
    simp only [distance_put, next hsteps]
    omega
  · intro hsteps
    simp only [distance_put, bucketCount_put, next hsteps]
    omega
  · intro hsteps
    simp only [distance_put, next hsteps, distance_self hi]
    omega
  · simp only [distance_put, distance_self hi]
    exact Nat.zero_le _

theorem removeAt (ht : t.Sound) (hs : t.slotAt i = some s) : (t.removeAt i).Sound := by
  obtain ⟨e, gap⟩ := ht.gap hs
  exact gap.closeGap

theorem mem_slots_removeAt (ht : t.Sound) (hs : t.slotAt i = some s) {a : S} :
    a ∈ (t.removeAt i).slots ↔ a ∈ t.slots ∧ Slot.key a ≠ Slot.key s := by
  obtain ⟨e, gap⟩ := ht.gap hs
  have hi := lt_of_slotAt hs
  rw [KeyedTable.removeAt, gap.mem_slots_closeGap]
  simp only [mem_slots]
  constructor
  · rintro ⟨j, hj⟩
    rw [slotAt_put hi] at hj
    split at hj
    · cases hj
    · next ne => exact ⟨⟨j, hj⟩, fun same => ne (ht.unique hj hs same)⟩
  · rintro ⟨⟨j, hj⟩, ne⟩
    refine ⟨j, ?_⟩
    rw [slotAt_put_of_ne hi, hj]
    rintro rfl
    rw [hs] at hj
    exact ne (congrArg Slot.key (Option.some.inj hj).symm)

end Sound

end HostProfile.KeyedTable
