/-!
# Maps in order of first appearance

Values under distinct names. A name keeps the place at which it was first given, also when its
value changes later.
-/

namespace HostProfile

/-- Values under distinct names, in the order in which the names were first given. -/
structure OrderedMap (β : Type) where
  entries : List (String × β)
  nodup : (entries.map Prod.fst).Nodup
  deriving DecidableEq

namespace OrderedMap

variable {β : Type}

/-- The map without entries. -/
def empty : OrderedMap β := ⟨[], List.nodup_nil⟩

instance : EmptyCollection (OrderedMap β) := ⟨empty⟩

instance : Inhabited (OrderedMap β) := ⟨empty⟩

/-- The number of entries. -/
def size (m : OrderedMap β) : Nat := m.entries.length

/-- The names, in order. -/
def names (m : OrderedMap β) : List String := m.entries.map Prod.fst

/-- The value under a name. -/
def get? (m : OrderedMap β) (name : String) : Option β := m.entries.lookup name

/-- Whether the name has a value. -/
def contains (m : OrderedMap β) (name : String) : Bool := m.names.contains name

/-- Gives `name` the value: in its place when it has one already, at the end otherwise. -/
def insert (m : OrderedMap β) (name : String) (value : β) : OrderedMap β :=
  if h : name ∈ m.entries.map Prod.fst then
    { entries := m.entries.map fun e => if e.1 = name then (name, value) else e
      nodup := by
        have same : (m.entries.map fun e => if e.1 = name then (name, value) else e).map Prod.fst =
            m.entries.map Prod.fst := by
          rw [List.map_map]
          refine List.map_congr_left fun e _ => ?_
          by_cases he : e.1 = name <;> simp [he]
        rw [same]
        exact m.nodup }
  else
    { entries := m.entries ++ [(name, value)]
      nodup := by
        rw [List.map_append, List.nodup_append]
        refine ⟨m.nodup, by simp, ?_⟩
        intro a ha b hb
        simp only [List.map_cons, List.map_nil, List.mem_singleton] at hb
        rintro rfl
        exact h (hb ▸ ha) }

/-- Takes the name out; the others keep their order. -/
def erase (m : OrderedMap β) (name : String) : OrderedMap β :=
  { entries := m.entries.filter (·.1 != name)
    nodup := m.nodup.sublist (List.filter_sublist.map Prod.fst) }

/-- The entries put in one after another. -/
def ofList (entries : List (String × β)) : OrderedMap β :=
  entries.foldl (fun m e => m.insert e.1 e.2) empty

end OrderedMap

end HostProfile
