import HostProfile.Proofs.KeyedTable.Listing
import HostProfile.Proofs.KeyedTable.Refinement

/-!
# Room in a table

The load limit alone keeps no bucket free: a table of three buckets takes three keys. But a table is
rebuilt before its next key, so that no key is ever refused. The number of buckets tells the whole
story: only a new key that finds the table too full changes it, to one more than twice the number of
keys. A rebuilding takes the slots out one after another; each of them finds an empty bucket, so
that none is refused on the way and none is absorbed by another.
-/

namespace HostProfile.KeyedTable

variable {S : Type} {t t' : KeyedTable S}

/-- A new key is put into the table as it is. -/
def Roomy (t : KeyedTable S) : Prop := 10 * t.size < 7 * t.bucketCount

instance (t : KeyedTable S) : Decidable t.Roomy :=
  inferInstanceAs (Decidable (10 * t.size < 7 * t.bucketCount))

theorem below_limit_iff : t.load.below Load.limit = true ↔ t.Roomy := by
  simp only [Load.below, load, Load.limit, decide_eq_true_eq, Roomy, Nat.mul_comm]

theorem Roomy.lt (roomy : t.Roomy) : t.size < t.bucketCount := by
  unfold Roomy at roomy
  omega

/-- A table that is too full grows. -/
theorem lt_of_not_roomy (full : ¬ t.Roomy) : t.bucketCount < 2 * t.size + 1 := by
  unfold Roomy at full
  omega

theorem grownCount_eq (t : KeyedTable S) : t.grownCount = 2 * t.size + 1 := by
  simp only [grownCount, Load.target, Nat.div_one, Nat.mul_comm]

variable [Slot S] {key : String}

/-! ## What leaves the buckets as many as they were -/

@[simp] theorem bucketCount_closeGap (steps hole i : Nat) :
    (t.closeGap steps hole i).bucketCount = t.bucketCount := by
  induction steps generalizing t hole i with
  | zero => rfl
  | succ steps ih =>
      unfold closeGap
      split
      · rfl
      · dsimp only
        split
        · rw [ih, bucketCount_put, bucketCount_put]
        · exact ih hole (t.next i)

@[simp] theorem bucketCount_removeAt (t : KeyedTable S) (i : Nat) :
    (t.removeAt i).bucketCount = t.bucketCount := by
  rw [removeAt, bucketCount_closeGap, bucketCount_put]

@[simp] theorem bucketCount_settle (t : KeyedTable S) (i : Nat) (slot : S) :
    (t.settle i slot).bucketCount = t.bucketCount := by
  unfold settle
  split
  · rw [bucketCount_removeAt, bucketCount_put]
  · exact bucketCount_put t i _

/-! ## Reserving a bucket -/

theorem contains_iff : t.contains key = true ↔ ∃ slot, t.find? key = some slot :=
  Option.isSome_iff_exists

/-- The bucket of a key is found in the table itself, where it has the key or is roomy. -/
theorem reserve_of_fits (fits : t.contains key = true ∨ t.Roomy) (supply : Supply) :
    ∃ i, t.reserve key supply = .ok (t, i) ∧ t.probe key = some i := by
  have probed : ∃ i, t.probe key = some i := by
    rcases fits with there | roomy
    · obtain ⟨slot, found⟩ := contains_iff.mp there
      obtain ⟨i, hi, -⟩ := slotAt_of_find? found
      exact ⟨i, hi⟩
    · exact exists_probe roomy.lt key
  obtain ⟨i, hi⟩ := probed
  have kept : ((t.slotAt i).isSome || t.load.below Load.limit) = true := by
    rw [Bool.or_eq_true, below_limit_iff, ← Sound.find?_of_probe hi]
    exact fits
  refine ⟨i, ?_, hi⟩
  have found : (t.probe key).filter (fun i => (t.slotAt i).isSome || t.load.below Load.limit) =
      some i := Option.filter_eq_some_iff.mpr ⟨hi, kept⟩
  simp only [reserve, found]

/-- Otherwise it is found in the table rebuilt into one more than twice as many buckets as there are
keys, and it is empty. -/
theorem Sound.reserve_of_full (ht : t.Sound) (absent : t.contains key = false)
    (full : ¬ t.Roomy) (supply : Supply) :
    ∃ grown i, t.rebuild (2 * t.size + 1) supply = .ok grown ∧
      t.reserve key supply = .ok (grown, i) ∧ grown.bucketCount = 2 * t.size + 1 := by
  have turned_down : (t.probe key).filter
      (fun i => (t.slotAt i).isSome || t.load.below Load.limit) = none := by
    refine Option.filter_eq_none_iff.mpr fun i hi kept => ?_
    rw [Bool.or_eq_true, below_limit_iff, ← Sound.find?_of_probe hi] at kept
    exact kept.elim (fun there => absurd (absent.symm.trans there) nofun) full
  obtain ⟨grown, rebuilt, -, buckets, size, -⟩ :=
    ht.rebuild (n := 2 * t.size + 1) (by omega) supply
  obtain ⟨i, hi⟩ := exists_probe (t := grown) (by omega) key
  refine ⟨grown, i, rebuilt, ?_, by omega⟩
  simp only [KeyedTable.reserve, turned_down, grownCount_eq, rebuilt, bind, Except.bind, hi, pure,
    Except.pure]

/-- Every key is given a bucket, and the buckets become more only for a new key that finds the table
too full. -/
theorem Sound.bucketCount_reserve (ht : t.Sound) {i : Nat} {supply : Supply}
    (reserved : t.reserve key supply = .ok (t', i)) :
    t'.bucketCount =
      if t.contains key = true ∨ t.Roomy then t.bucketCount else 2 * t.size + 1 := by
  split
  · next fits =>
    obtain ⟨j, same, -⟩ := reserve_of_fits fits supply
    obtain ⟨rfl, -⟩ := Prod.mk.inj (Except.ok.inj (same.symm.trans reserved))
    rfl
  · next full =>
    rw [not_or, Bool.not_eq_true] at full
    obtain ⟨grown, j, -, same, buckets⟩ := ht.reserve_of_full full.1 full.2 supply
    obtain ⟨rfl, -⟩ := Prod.mk.inj (Except.ok.inj (same.symm.trans reserved))
    exact buckets

/-! ## Upserts and merged slots -/

/-- An upsert fails only where the action on the slot fails. -/
theorem Sound.upsert_room {α : Type} (ht : t.Sound) (key : String) (create : S) (act : Action S α)
    (supply : Supply) :
    let after := KeyedTable.upsert key create act t supply
    after.result = (act ((t.find? key).getD create) supply).result ∧
      after.state.bucketCount =
        if t.contains key = true ∨ t.Roomy then t.bucketCount else 2 * t.size + 1 := by
  obtain ⟨t', i, reserved, -, hi, same⟩ := ht.reserve key supply
  have slot : t'.slotAt i = t.find? key := by rw [← same, Sound.find?_of_probe hi]
  simp only [KeyedTable.upsert, reserved, slot, Outcome.result_mapState, Outcome.state_mapState,
    bucketCount_settle, true_and]
  exact ht.bucketCount_reserve reserved

/-- The answer of a slot that is put into a table: that of the merge into the slot which has its
key, where there is one. -/
def answer (t : KeyedTable S) (slot : S) (supply : Supply) : Except MergeError Change :=
  match t.find? (Slot.key slot) with
  | some occupant => (Slot.absorb slot occupant supply).result
  | none => .ok (if Slot.isEmpty slot then .unchanged else .added)

/-- Putting in a slot fails only where its key is there and the merge of the slots fails. An empty
slot with a new key leaves the table alone. -/
theorem Sound.mergeSlot_room (ht : t.Sound) (slot : S) (supply : Supply) :
    let after := KeyedTable.mergeSlot slot t supply
    after.result = t.answer slot supply ∧
      after.state.bucketCount =
        if t.contains (Slot.key slot) = true ∨ Slot.isEmpty slot = true ∨ t.Roomy then t.bucketCount
        else 2 * t.size + 1 := by
  obtain ⟨t', i, reserved, -, hi, same⟩ := ht.reserve (Slot.key slot) supply
  have at_key : t'.slotAt i = t.find? (Slot.key slot) := by rw [← same, Sound.find?_of_probe hi]
  have buckets := ht.bucketCount_reserve reserved
  cases found : t.find? (Slot.key slot) with
  | some occupant =>
      have there : t.contains (Slot.key slot) = true := by rw [contains, found]; rfl
      simp only [KeyedTable.mergeSlot, there, Bool.not_true, Bool.and_false, Bool.false_eq_true,
        if_false, reserved, place_of_taken (at_key.trans found), found, answer,
        Outcome.result_mapState, Outcome.state_mapState, bucketCount_settle, true_or, if_true,
        true_and]
      rw [buckets, if_pos (.inl there)]
  | none =>
      have absent : t.contains (Slot.key slot) = false := by rw [contains, found]; rfl
      cases empty : Slot.isEmpty slot with
      | true =>
          simp only [KeyedTable.mergeSlot, absent, empty, Bool.not_false, Bool.and_true, if_true,
            answer, found, true_or, or_true, true_and]
      | false =>
          simp only [KeyedTable.mergeSlot, absent, empty, Bool.not_false, Bool.and_true,
            Bool.false_eq_true, if_false, reserved, place_of_empty (at_key.trans found), found,
            answer, bucketCount_put, false_or, true_and]
          rw [buckets, absent]
          simp only [Bool.false_eq_true, false_or]

/-! ## Rebuilding -/

/-- When the slots before it have been taken over, a slot finds an empty bucket. -/
theorem Sound.readmits (ht : t.Sound) {n : Nat} (room : t.size ≤ max n 1) {before after : List S}
    {s : S} (slots : t.slots = before ++ s :: after) (supply : Supply) :
    ∃ change fresh i,
      Action.each readmit before (withBuckets (max n 1)) supply = ⟨.ok change, fresh, supply⟩ ∧
      fresh.probe (Slot.key s) = some i ∧ fresh.slotAt i = none := by
  have none_yet : (withBuckets (max n 1) : KeyedTable S).size = 0 := by
    rw [size_eq_length_slots, slots_withBuckets, List.length_nil]
  have keys := ht.nodup_keys
  rw [size_eq_length_slots, slots, List.length_append, List.length_cons] at room
  rw [slots, List.map_append, List.map_cons, List.nodup_append] at keys
  obtain ⟨distinct, -, apart⟩ := keys
  have new : Slot.key s ∉ before.map Slot.key := fun among =>
    apart _ among _ List.mem_cons_self rfl
  obtain ⟨change, fresh, done, -, buckets, size, -, others⟩ :=
    (sound_withBuckets (max n 1)).readmit_all supply
      (by rw [none_yet, bucketCount_withBuckets]; omega) distinct
      fun s _ => Sound.find?_withBuckets _ (Slot.key s)
  rw [bucketCount_withBuckets] at buckets
  obtain ⟨i, hi⟩ := exists_probe (t := fresh) (by omega) (Slot.key s)
  refine ⟨change, fresh, i, done, hi, ?_⟩
  rw [← Sound.find?_of_probe hi, others _ new, Sound.find?_withBuckets]

/-! ## Tables in use -/

/-- The tables that come from new ones by any operations, and by changes of slots where they are
that leave the keys. -/
inductive Reached : KeyedTable S → Prop where
  | new (n : Nat) : Reached (withBuckets n)
  | op {t : KeyedTable S} (op : Op S) (supply : Supply) :
      Reached t → Reached (op.onTable t supply).2.1
  | inPlace {t t' : KeyedTable S} : Reached t → SameKeys t t' → Reached t'

theorem Sound.onTable [LawfulSlot S] (ht : t.Sound) (op : Op S) (supply : Supply) :
    (op.onTable t supply).2.1.Sound := by
  cases op with
  | upsert key create act created keeps =>
      refine (ht.upsert act supply (keeps _ supply ?_)).2.2.1
      cases found : t.find? key with
      | none => exact created
      | some slot => exact (ht.find?_eq_some_iff.mp found).2
  | mergeSlot slot =>
      cases found : t.find? (Slot.key slot) with
      | none => exact (ht.mergeSlot_new found supply).2.2.1
      | some occupant =>
          have keeps := LawfulSlot.key_absorb slot occupant supply (ht.find?_eq_some_iff.mp found).2
          exact (ht.mergeSlot_absorb found supply keeps).2.2.1
  | remove key =>
      simp only [Op.onTable, remove_eq]
      cases t.find? key with
      | none => exact ht
      | some slot => exact (ht.erase key).1
  | retain keep => exact (ht.retain keep).1
  | rebuild n =>
      simp only [Op.onTable]
      by_cases room : t.size ≤ max n 1
      · obtain ⟨rebuilt, done, sound, -⟩ := ht.rebuild room supply
        rw [done]
        exact sound
      · rw [rebuild_eq_error (Nat.lt_of_not_le room) supply]
        exact ht
  | change key f keeps => exact (ht.modify keeps).1

theorem Reached.sound [LawfulSlot S] (reached : t.Reached) : t.Sound := by
  induction reached with
  | new n => exact sound_withBuckets n
  | op op supply _ sound => exact sound.onTable op supply
  | inPlace _ same sound => exact same.sound sound

/-- A table never runs out of buckets. An upsert and a slot that is put in fail only for reasons of
the slots. A key that is there leaves the number of buckets; so does a new one where the table is
roomy, and then an empty bucket is found for it; otherwise the table grows for it to one more than
twice the number of keys. A rebuilding is refused exactly when it leaves fewer buckets than keys,
and the table stays as it is; otherwise it comes to as many buckets as were asked for, with the
slots that were there, each of which finds an empty bucket and takes nothing from the supply. -/
theorem always_room [LawfulSlot S] (reached : t.Reached) :
    (∀ (α : Type) (key : String) (create : S) (act : Action S α) (supply : Supply),
      let after := upsert key create act t supply
      after.result = (act ((t.find? key).getD create) supply).result ∧
      after.state.bucketCount =
        if t.contains key = true ∨ t.Roomy then t.bucketCount else 2 * t.size + 1) ∧
    (∀ (slot : S) (supply : Supply),
      let after := mergeSlot slot t supply
      after.result = t.answer slot supply ∧
      after.state.bucketCount =
        if t.contains (Slot.key slot) = true ∨ Slot.isEmpty slot = true ∨ t.Roomy then t.bucketCount
        else 2 * t.size + 1) ∧
    (∀ key supply, t.contains key = false → t.Roomy →
      ∃ i, t.reserve key supply = .ok (t, i) ∧ t.slotAt i = none) ∧
    (∀ key supply, t.contains key = false → ¬ t.Roomy → t.bucketCount < 2 * t.size + 1 ∧
      ∃ grown i, t.rebuild (2 * t.size + 1) supply = .ok grown ∧
        t.reserve key supply = .ok (grown, i)) ∧
    ∀ n supply, ((∃ e, t.rebuild n supply = .error e) ↔ max n 1 < t.size) ∧
      (max n 1 < t.size → (Op.rebuild n).onTable t supply = (false, t, supply)) ∧
      (t.size ≤ max n 1 → ∃ rebuilt, t.rebuild n supply = .ok rebuilt ∧
        rebuilt.bucketCount = max n 1 ∧ rebuilt.slots.Perm t.slots ∧
        ∀ before s after, t.slots = before ++ s :: after →
          ∃ change fresh i,
            Action.each readmit before (withBuckets (max n 1)) supply =
              ⟨.ok change, fresh, supply⟩ ∧
            fresh.probe (Slot.key s) = some i ∧ fresh.slotAt i = none) := by
  have ht := reached.sound
  refine ⟨fun _ => ht.upsert_room, ht.mergeSlot_room, ?roomy, ?full,
    fun n supply => ⟨?refused, ?kept, ?done⟩⟩
  case roomy =>
    intro key supply absent roomy
    have fits : t.contains key = true ∨ t.Roomy := .inr roomy
    obtain ⟨i, reserved, hi⟩ := reserve_of_fits fits supply
    refine ⟨i, reserved, ?_⟩
    rw [← Sound.find?_of_probe hi]
    exact Option.isNone_iff_eq_none.mp (Option.isSome_eq_false_iff.mp absent)
  case full =>
    intro key supply absent full
    obtain ⟨grown, i, rebuilt, reserved, -⟩ := ht.reserve_of_full absent full supply
    exact ⟨lt_of_not_roomy full, grown, i, rebuilt, reserved⟩
  case refused =>
    constructor
    · rintro ⟨e, failed⟩
      by_contra room
      obtain ⟨rebuilt, done, -⟩ := ht.rebuild (Nat.le_of_not_lt room) supply
      rw [done] at failed
      cases failed
    · exact fun full => ⟨_, rebuild_eq_error full supply⟩
  case kept =>
    intro full
    simp only [Op.onTable, rebuild_eq_error full supply]
    rfl
  case done =>
    intro room
    obtain ⟨rebuilt, done, sound, buckets, -, same⟩ := ht.rebuild room supply
    exact ⟨rebuilt, done, buckets, ht.perm_slots sound (funext same),
      fun before s after slots => ht.readmits room slots supply⟩

/-- A table of three buckets takes three packages, and grows for the fourth. It cannot be rebuilt
into two buckets, but into three. -/
theorem always_room_when_full :
    let chain (name : String) : Chain Package :=
      { key := name, items := [⟨0, 0, { name }⟩], rules := .none, scope := .name }
    let put (t : KeyedTable (Chain Package)) (name : String) : KeyedTable (Chain Package) :=
      (mergeSlot (chain name) t {}).state
    let t := ["vim", "git", "zsh"].foldl put (withBuckets 3)
    LawfulSlot (Chain Package) ∧ t.Reached ∧ t.size = 3 ∧ t.bucketCount = 3 ∧
      (mergeSlot (chain "jq") t {}).result = .ok .added ∧ (put t "jq").bucketCount = 7 ∧
      (∃ e, t.rebuild 2 = .error e) ∧
      ∃ rebuilt, t.rebuild 3 = .ok rebuilt ∧ rebuilt.slots.Perm t.slots := by
  intro chain put t
  have step {t : KeyedTable (Chain Package)} (reached : t.Reached) (name : String) :
      (put t name).Reached := reached.op (.mergeSlot (chain name)) {}
  have reached : t.Reached := step (step (step (.new 3) "vim") "git") "zsh"
  have size : t.size = 3 := by decide +kernel
  have buckets : t.bucketCount = 3 := by decide +kernel
  have absent : t.contains "jq" = false := by decide +kernel
  obtain ⟨-, merged, -, -, rebuilding⟩ := always_room reached
  obtain ⟨result, count⟩ := merged (chain "jq") {}
  obtain ⟨rebuilt, done, -, perm, -⟩ := (rebuilding 3 {}).2.2 (by rw [size]; decide)
  refine ⟨inferInstance, reached, size, buckets, result.trans (by decide +kernel), ?_,
    (rebuilding 2 {}).1.mpr (by rw [size]; decide), rebuilt, done, perm⟩
  refine count.trans ?_
  rw [if_neg ?_, size]
  simp only [show Slot.key (chain "jq") = "jq" from rfl, absent, Roomy, size, buckets]
  decide

end HostProfile.KeyedTable
