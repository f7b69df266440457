import HostProfile.Proofs.Chain.Merge
import HostProfile.Proofs.KeyedTable.InPlace
import Std.Data.ExtTreeMap.Lemmas

/-!
# Tables as maps

A table answers like a plain map from keys to slots, whatever is done to it. The operations are
data here, so that a sequence of them can be run on a table and on a map side by side. `onMap` says
what each does to a map: an upsert or a merged slot is stored unless it is empty, and then the key
goes; a rebuild does nothing. The buckets, their number and the way round them do not occur in it.
-/

namespace HostProfile.KeyedTable

variable {S : Type} [Slot S]

/-- An operation on a table. An upsert creates a slot for its key, and neither an upsert nor a
change of a slot that was found gives the slot another key. -/
inductive Op (S : Type) [Slot S] : Type 1 where
  | upsert {α : Type} (key : String) (create : S) (act : Action S α)
      (created : Slot.key create = key)
      (keeps : ∀ slot supply, Slot.key slot = key → Slot.key (act slot supply).state = key)
  | mergeSlot (slot : S)
  | remove (key : String)
  | retain (keep : S → Bool)
  | rebuild (n : Nat)
  | change (key : String) (f : S → S)
      (keeps : ∀ slot, Slot.key slot = key → Slot.key (f slot) = key)

/-- What an operation answers: a removal the slot it took out, retaining the number of slots that
went, a rebuild whether it was done, a change the slot as it was found. -/
def Op.Answer : Op S → Type
  | @upsert _ _ α _ _ _ _ _ => Except MergeError α
  | mergeSlot _ => Except MergeError Change
  | remove _ => Option S
  | retain _ => Nat
  | rebuild _ => Bool
  | change _ _ _ => Option S

/-- Carries out the operation on a table. -/
def Op.onTable : (op : Op S) → KeyedTable S → Supply → op.Answer × KeyedTable S × Supply
  | upsert key create act _ _, t, supply =>
    let done := KeyedTable.upsert key create act t supply
    (done.result, done.state, done.supply)
  | mergeSlot slot, t, supply =>
    let done := KeyedTable.mergeSlot slot t supply
    (done.result, done.state, done.supply)
  | remove key, t, supply =>
    match t.remove key with
    | some (slot, rest) => (some slot, rest, supply)
    | none => (none, t, supply)
  | retain keep, t, supply => ((t.retain keep).2, (t.retain keep).1, supply)
  | rebuild n, t, supply =>
    match t.rebuild n supply with
    | .ok rebuilt => (true, rebuilt, supply)
    | .error _ => (false, t, supply)
  | change key f _, t, supply => (t.find? key, t.modify key f, supply)

/-- Slots under their keys, and nothing else. -/
abbrev SlotMap (S : Type) : Type := Std.ExtTreeMap String S

/-- The map with the slot under the key, or without the key when the slot is empty. -/
def SlotMap.settle (m : SlotMap S) (key : String) (slot : S) : SlotMap S :=
  if Slot.isEmpty slot then m.erase key else m.insert key slot

/-- What the operation does to a plain map. -/
def Op.onMap : (op : Op S) → SlotMap S → Supply → op.Answer × SlotMap S × Supply
  | upsert key create act _ _, m, supply =>
    let done := act (m[key]?.getD create) supply
    (done.result, m.settle key done.state, done.supply)
  | mergeSlot slot, m, supply =>
    match m[Slot.key slot]? with
    | none =>
      (.ok (if Slot.isEmpty slot then .unchanged else .added), m.settle (Slot.key slot) slot,
        supply)
    | some occupant =>
      let done := Slot.absorb slot occupant supply
      (done.result, m.settle (Slot.key slot) done.state, done.supply)
  | remove key, m, supply => (m[key]?, m.erase key, supply)
  | retain keep, m, supply =>
    ((m.filter fun _ slot => !keep slot).size, m.filter fun _ slot => keep slot, supply)
  | rebuild n, m, supply => (decide (m.size ≤ max n 1), m, supply)
  | change key f _, m, supply => (m[key]?, m.alter key (Option.map f), supply)

/-- Carries out operations one after another and collects their answers. -/
def run {σ : Type} (step : (op : Op S) → σ → Supply → op.Answer × σ × Supply) :
    List (Op S) → σ → Supply → List (Sigma (Op.Answer (S := S))) × σ × Supply
  | [], state, supply => ([], state, supply)
  | op :: rest, state, supply =>
    let first := step op state supply
    let others := run step rest first.2.1 first.2.2
    (⟨op, first.1⟩ :: others.1, others.2)

@[simp] theorem SlotMap.getElem?_settle (m : SlotMap S) (key : String) (slot : S) (k : String) :
    (m.settle key slot)[k]? = if k = key then kept slot else m[k]? := by
  unfold settle kept
  split
  · simp only [Std.ExtTreeMap.getElem?_erase, Std.compare_eq_iff_eq, eq_comm (a := k)]
  · simp only [Std.ExtTreeMap.getElem?_insert, Std.compare_eq_iff_eq, eq_comm (a := k)]

/-- The table is sound and finds under each key what the map has there. -/
structure Represents (t : KeyedTable S) (m : SlotMap S) : Prop where
  sound : t.Sound
  find? : ∀ key, t.find? key = m[key]?

namespace Represents

variable {t : KeyedTable S} {m : SlotMap S}

theorem mem_slots_iff (h : Represents t m) {slot : S} :
    slot ∈ t.slots ↔ m[Slot.key slot]? = some slot := by
  rw [← h.find?, h.sound.find?_eq_some_iff, and_iff_left rfl]

/-- The table lists each key of the map once. -/
theorem perm_keys (h : Represents t m) : (t.slots.map Slot.key).Perm m.keys := by
  apply (List.perm_ext_iff_of_nodup h.sound.nodup_keys m.nodup_keys).mpr
  intro key
  rw [Std.ExtTreeMap.mem_keys, Std.ExtTreeMap.mem_iff_isSome_getElem?, ← h.find?,
    Option.isSome_iff_exists, List.mem_map]
  exact exists_congr fun slot => h.sound.find?_eq_some_iff.symm

theorem size_eq (h : Represents t m) : t.size = m.size := by
  rw [size_eq_length_slots, ← Std.ExtTreeMap.length_keys, ← h.perm_keys.length_eq,
    List.length_map]

/-- A table filtered by a test represents the map filtered by it. -/
theorem filter (h : Represents t m) (keep : S → Bool) :
    Represents (t.retain keep).1 (m.filter fun _ slot => keep slot) where
  sound := (h.sound.retain keep).1
  find? key := by
    rw [(h.sound.retain keep).2.2, h.find?, Std.ExtTreeMap.getElem?_filter']

theorem length_filter (h : Represents t m) (keep : S → Bool) :
    (t.slots.filter keep).length = (m.filter fun _ slot => keep slot).size := by
  rw [← (h.filter keep).size_eq, size_eq_length_slots]
  refine List.Perm.length_eq ((List.perm_ext_iff_of_nodup
    (h.sound.nodup_slots.filter keep) (h.sound.retain keep).1.nodup_slots).mpr fun slot => ?_)
  rw [List.mem_filter, (h.filter keep).mem_slots_iff, Std.ExtTreeMap.getElem?_filter',
    Option.filter_eq_some_iff, h.mem_slots_iff]

theorem erase (h : Represents t m) (key : String) :
    Represents (t.erase key) (m.erase key) where
  sound := (h.sound.erase key).1
  find? k := by
    rw [(h.sound.erase key).2, h.find?, Std.ExtTreeMap.getElem?_erase]
    simp only [Std.compare_eq_iff_eq, eq_comm (a := k)]

/-- One operation answers on a table what it answers on the map that the table represents, and
keeps the two together. -/
theorem step [LawfulSlot S] (h : Represents t m) (op : Op S) (supply : Supply) :
    (op.onTable t supply).1 = (op.onMap m supply).1 ∧
      (op.onTable t supply).2.2 = (op.onMap m supply).2.2 ∧
      Represents (op.onTable t supply).2.1 (op.onMap m supply).2.1 := by
  cases op with
  | upsert key create act created keeps =>
      have found : Slot.key ((t.find? key).getD create) = key := by
        cases hold : t.find? key with
        | none => exact created
        | some slot => exact (h.sound.find?_eq_some_iff.mp hold).2
      obtain ⟨result, taken, sound, find⟩ :=
        h.sound.upsert act supply (keeps _ supply found)
      simp only [h.find?] at result taken find
      refine ⟨result, taken, sound, ?_⟩
      intro k
      simp only [Op.onMap, SlotMap.getElem?_settle]
      exact find k
  | mergeSlot slot =>
      cases hold : t.find? (Slot.key slot) with
      | none =>
          obtain ⟨result, taken, sound, find⟩ := h.sound.mergeSlot_new hold supply
          rw [h.find?] at hold
          simp only [Op.onMap, hold]
          refine ⟨result, taken, sound, ?_⟩
          intro k
          rw [SlotMap.getElem?_settle, ← h.find?]
          exact find k
      | some occupant =>
          obtain ⟨result, taken, sound, find⟩ := h.sound.mergeSlot_absorb hold supply
            (LawfulSlot.key_absorb slot occupant supply (h.sound.find?_eq_some_iff.mp hold).2)
          rw [h.find?] at hold
          simp only [Op.onMap, hold]
          refine ⟨result, taken, sound, ?_⟩
          intro k
          rw [SlotMap.getElem?_settle, ← h.find?]
          exact find k
  | remove key =>
      have erased := h.erase key
      have found := h.find? key
      simp only [Op.onTable, Op.onMap, remove_eq]
      cases hold : t.find? key with
      | none =>
          have same : t.erase key = t := by simp only [KeyedTable.erase, remove_of_absent hold]
          rw [same] at erased
          exact ⟨hold.symm.trans found, rfl, erased⟩
      | some slot => exact ⟨hold.symm.trans found, rfl, erased⟩
  | retain keep =>
      refine ⟨?_, rfl, h.filter keep⟩
      exact (h.sound.retain keep).2.1.trans (h.length_filter fun slot => !keep slot)
  | rebuild n =>
      simp only [Op.onTable, Op.onMap, ← h.size_eq]
      by_cases room : t.size ≤ max n 1
      · obtain ⟨rebuilt, done, sound, -, -, same⟩ := h.sound.rebuild room supply
        simp only [done, decide_eq_true room]
        exact ⟨rfl, trivial, sound, fun key => (same key).trans (h.find? key)⟩
      · rw [rebuild_eq_error (Nat.lt_of_not_le room) supply, decide_eq_false room]
        exact ⟨rfl, rfl, h⟩
  | change key f keeps =>
      obtain ⟨sound, find⟩ := h.sound.modify keeps
      refine ⟨h.find? key, rfl, sound, ?_⟩
      intro k
      simp only [Op.onTable, Op.onMap, find, h.find?, Std.ExtTreeMap.getElem?_alter,
        Std.compare_eq_iff_eq, eq_comm (a := k)]

/-- A run of operations answers on a table what it answers on the map that the table represents,
and keeps the two together. -/
theorem run [LawfulSlot S] (ops : List (Op S)) :
    ∀ {t : KeyedTable S} {m : SlotMap S} (supply : Supply), Represents t m →
      (KeyedTable.run Op.onTable ops t supply).1 = (KeyedTable.run Op.onMap ops m supply).1 ∧
        (KeyedTable.run Op.onTable ops t supply).2.2 =
          (KeyedTable.run Op.onMap ops m supply).2.2 ∧
        Represents (KeyedTable.run Op.onTable ops t supply).2.1
          (KeyedTable.run Op.onMap ops m supply).2.1 := by
  induction ops with
  | nil =>
      intro t m supply h
      exact ⟨rfl, rfl, h⟩
  | cons op rest ih =>
      intro t m supply h
      obtain ⟨answer, taken, represents⟩ := h.step op supply
      -- Both runs go on with the same cells, so that the rest gives the same answers as well.
      obtain ⟨answers, left, together⟩ := ih (op.onTable t supply).2.2 represents
      rw [taken] at answers left together
      simp only [KeyedTable.run, answer, taken]
      exact ⟨congrArg _ answers, left, together⟩

end Represents

/-- Every sequence of operations on a new table, of however many buckets, answers what it answers
on a plain map, and leaves a table that has under each key what the map has there, lists every slot
of the map once, and counts its keys. -/
theorem run_onTable [LawfulSlot S] (n : Nat) (ops : List (Op S)) (supply : Supply) :
    let table := run Op.onTable ops (withBuckets n) supply
    let map := run Op.onMap ops ∅ supply
    table.1 = map.1 ∧ table.2.2 = map.2.2 ∧
      (∀ key, table.2.1.find? key = map.2.1[key]?) ∧
      (table.2.1.slots.map Slot.key).Nodup ∧
      (∀ slot, slot ∈ table.2.1.slots ↔ map.2.1[Slot.key slot]? = some slot) ∧
      table.2.1.size = map.2.1.size := by
  have empty : Represents (withBuckets n) (∅ : SlotMap S) :=
    ⟨sound_withBuckets n, fun key => by
      rw [Sound.find?_withBuckets, Std.ExtTreeMap.getElem?_empty]⟩
  obtain ⟨answers, supplies, together⟩ := Represents.run ops supply empty
  exact ⟨answers, supplies, together.find?, together.sound.nodup_keys,
    fun _ => together.mem_slots_iff, together.size_eq⟩

theorem run_onTable_chains :
    let chain (name : String) : Chain Package :=
      { key := name, items := [⟨0, 0, { name }⟩], rules := .none, scope := .name }
    let ops : List (Op (Chain Package)) :=
      [.mergeSlot (chain "vim"), .mergeSlot (chain "git"), .rebuild 1, .remove "vim"]
    LawfulSlot (Chain Package) ∧
      (run Op.onTable ops (withBuckets 0) {}).2.1.find? "git" = some (chain "git") ∧
      (run Op.onTable ops (withBuckets 0) {}).2.1.size = 1 := by
  intro chain ops
  obtain ⟨-, -, find, -, -, size⟩ := run_onTable 0 ops {}
  exact ⟨inferInstance, (find "git").trans (by decide), size.trans (by decide)⟩

end HostProfile.KeyedTable
