import HostProfile.OrderedMap
import Mathlib.Data.List.Basic
import Mathlib.Data.List.Induction

/-!
# Maps from their entries

A name that a map does not have is put in at the end, so a map is built from its entries.
-/

namespace HostProfile

variable {β : Type}

theorem not_mem_of_nodup_append {before more : List (String × β)} {e : String × β}
    (nodup : ((before ++ e :: more).map Prod.fst).Nodup) : e.1 ∉ before.map Prod.fst := by
  rw [List.map_append, List.map_cons, List.nodup_append] at nodup
  exact fun member => nodup.2.2 e.1 member e.1 List.mem_cons_self rfl

/-- Among distinct names a look-up finds exactly what is there. -/
theorem lookup_eq_some_iff {entries : List (String × β)} (nodup : (entries.map Prod.fst).Nodup)
    {name : String} {v : β} : entries.lookup name = some v ↔ (name, v) ∈ entries := by
  induction entries with
  | nil => simp
  | cons e entries ih =>
      obtain ⟨fresh, nodup⟩ := List.nodup_cons.mp nodup
      rw [List.mem_cons]
      by_cases same : name = e.1
      · have absent : (name, v) ∉ entries := fun member =>
          fresh (same ▸ List.mem_map_of_mem (f := Prod.fst) member)
        rw [or_iff_left absent, same, List.lookup_cons_self, Option.some.injEq, Prod.ext_iff]
        simp [eq_comm]
      · have differs : (name == e.1) = false := beq_eq_false_iff_ne.mpr same
        rw [List.lookup_cons, differs, ih nodup, Prod.ext_iff]
        simp [same]

namespace OrderedMap

theorem ext_entries {m n : OrderedMap β} (same : m.entries = n.entries) : m = n := by
  cases m
  cases n
  cases same
  rfl

theorem entries_insert_new {m : OrderedMap β} {name : String} (new : name ∉ m.entries.map Prod.fst)
    (v : β) : (m.insert name v).entries = m.entries ++ [(name, v)] := by
  rw [insert, dif_neg new]

theorem get?_eq_some_iff {m : OrderedMap β} {name : String} {v : β} :
    m.get? name = some v ↔ (name, v) ∈ m.entries :=
  lookup_eq_some_iff m.nodup

theorem mem_of_get? {m : OrderedMap β} {name : String} {v : β} (found : m.get? name = some v) :
    (name, v) ∈ m.entries :=
  get?_eq_some_iff.mp found

theorem entries_eq (m : OrderedMap β) :
    m.entries = m.names.filterMap fun name => (m.get? name).map (name, ·) := by
  rw [names, List.filterMap_map]
  refine (List.filterMap_some.symm.trans (List.filterMap_congr fun e member => ?_))
  rw [Function.comp_apply, get?_eq_some_iff.mpr member, Option.map_some]

/-- A map is its names in their order with their values. -/
theorem ext_get? {m n : OrderedMap β} (names : m.names = n.names)
    (values : ∀ name, m.get? name = n.get? name) : m = n := by
  refine ext_entries ?_
  rw [m.entries_eq, n.entries_eq, names]
  simp only [values]

/-- A name has one value at a time, the one that it was given last. -/
theorem mem_insert_iff {m : OrderedMap β} {name : String} {v : β} {e : String × β} :
    e ∈ (m.insert name v).entries ↔ e = (name, v) ∨ e ∈ m.entries ∧ e.1 ≠ name := by
  unfold insert
  split
  · next held =>
    obtain ⟨old, old_held, rfl⟩ := List.mem_map.mp held
    rw [List.mem_map]
    constructor
    · rintro ⟨other, other_held, rfl⟩
      split
      · exact .inl rfl
      · next apart => exact .inr ⟨other_held, apart⟩
    · rintro (rfl | ⟨member, apart⟩)
      · exact ⟨old, old_held, if_pos rfl⟩
      · exact ⟨e, member, if_neg apart⟩
  · next new =>
    rw [List.mem_append, List.mem_singleton, or_comm]
    refine or_congr_right ⟨fun member => ⟨member, fun same => ?_⟩, And.left⟩
    exact new (same ▸ List.mem_map_of_mem (f := Prod.fst) member)

theorem mem_insert {m : OrderedMap β} {name : String} {v : β} {e : String × β}
    (member : e ∈ (m.insert name v).entries) : e ∈ m.entries ∨ e = (name, v) :=
  (mem_insert_iff.mp member).symm.imp_left And.left

theorem entries_foldl_insert (m : OrderedMap β) (entries : List (String × β))
    (nodup : ((m.entries ++ entries).map Prod.fst).Nodup) :
    (entries.foldl (fun m e => m.insert e.1 e.2) m).entries = m.entries ++ entries := by
  induction entries generalizing m with
  | nil => rw [List.foldl_nil, List.append_nil]
  | cons e entries ih =>
      have inserted := entries_insert_new (not_mem_of_nodup_append nodup) e.2
      have rest := ih (m.insert e.1 e.2) (by rw [inserted]; simpa using nodup)
      rw [List.foldl_cons, rest, inserted, List.append_assoc]
      rfl

/-- A map is built from its entries. -/
theorem ofList_entries (m : OrderedMap β) : ofList m.entries = m :=
  ext_entries (entries_foldl_insert empty m.entries m.nodup)

end OrderedMap

end HostProfile
