import HostProfile.Outcome

/-!
# Hash tables of keyed slots

A table keeps slots under their keys in an array of buckets. The home bucket of a key is given by
its hash, and a key is looked for from there on, bucket by bucket and round the end of the array,
until a bucket holds it or is empty. Removing a key moves the slots behind it back, so that no
empty bucket ever lies between a slot and its home.

A table grows before a new key is stored when it is too full, or when there is no empty bucket
left. Slots that are empty are taken out of the table after every merge.
-/

namespace HostProfile

/-- The content of a bucket. -/
class Slot (S : Type) where
  key : S → String
  /-- Whether the slot has no reason to stay in a table. -/
  isEmpty : S → Bool
  /-- The number of items in the slot. -/
  itemCount : S → Nat
  /-- Merges another slot with the same key into the slot. -/
  absorb : S → Action S Change

/-- The part of its buckets that a table uses. -/
structure Load where
  entries : Nat
  buckets : Nat

namespace Load

/-- The load from which on a table grows. -/
def limit : Load := ⟨7, 10⟩

/-- The load to which a table grows. -/
def target : Load := ⟨1, 2⟩

/-- Whether the first load is the smaller one. -/
def below (a b : Load) : Bool := a.entries * b.buckets < b.entries * a.buckets

/-- The load as a number, for reports. -/
def toFloat (l : Load) : Float := Float.ofNat l.entries / Float.ofNat l.buckets

end Load

/-- The hash of a key: a polynomial in 33 over the bytes of its UTF-8 form, in 64-bit words. -/
def hashKey (key : String) : UInt64 :=
  key.toUTF8.data.foldl (fun hash byte => hash * 33 + byte.toUInt64) 5381

/-- A table of slots under their keys. It counts the buckets that are taken. -/
structure KeyedTable (S : Type) where
  buckets : Array (Option S)
  entries : Nat
  size_pos : 0 < buckets.size
  entries_eq : entries = buckets.countP Option.isSome

namespace KeyedTable

variable {S α : Type} [Slot S]

/-- The number of buckets of a table that states none. -/
def initialBuckets : Nat := 113

/-- The table of `n` empty buckets, or of one. -/
def withBuckets (n : Nat) : KeyedTable S where
  buckets := Array.replicate (max n 1) none
  entries := 0
  size_pos := by rw [Array.size_replicate]; omega
  entries_eq := by rw [Array.countP_replicate, Option.isSome_none, if_neg Bool.false_ne_true]

instance : Inhabited (KeyedTable S) := ⟨withBuckets initialBuckets⟩

/-- The number of buckets. -/
def bucketCount (t : KeyedTable S) : Nat := t.buckets.size

/-- The slot in a bucket. -/
def slotAt (t : KeyedTable S) (i : Nat) : Option S := t.buckets[i]?.join

/-- The slots in the order of their buckets. -/
def slots (t : KeyedTable S) : List S := t.buckets.toList.filterMap id

/-- The number of keys. -/
def size (t : KeyedTable S) : Nat := t.entries

/-- The number of items in all slots. -/
def itemCount (t : KeyedTable S) : Nat := t.slots.foldr (fun slot n => Slot.itemCount slot + n) 0

def load (t : KeyedTable S) : Load := ⟨t.size, t.bucketCount⟩

/-- The bucket from which on a key is looked for. -/
def home (t : KeyedTable S) (key : String) : Nat := (hashKey key).toNat % t.bucketCount

/-- The bucket behind a bucket; the first one is behind the last. -/
def next (t : KeyedTable S) (i : Nat) : Nat := (i + 1) % t.bucketCount

/-- The first of `steps` buckets from `i` on that is empty or holds the key. -/
def seek (t : KeyedTable S) (key : String) : (steps i : Nat) → Option Nat
  | 0, _ => none
  | steps + 1, i =>
    match t.slotAt i with
    | none => some i
    | some slot => if Slot.key slot == key then some i else t.seek key steps (t.next i)

/-- The bucket that holds the key, or else the one in which it would be put; none when the key is
not there and every bucket is taken. -/
def probe (t : KeyedTable S) (key : String) : Option Nat := t.seek key t.bucketCount (t.home key)

/-- The slot of a key. -/
def find? (t : KeyedTable S) (key : String) : Option S := t.probe key >>= t.slotAt

def contains (t : KeyedTable S) (key : String) : Bool := (t.find? key).isSome

omit [Slot S] in
theorem countP_setIfInBounds (buckets : Array (Option S)) (i : Nat) (content : Option S) :
    (buckets.setIfInBounds i content).countP Option.isSome =
      if i < buckets.size then
        buckets.countP Option.isSome - buckets[i]?.join.isSome.toNat + content.isSome.toNat
      else buckets.countP Option.isSome := by
  rw [Array.setIfInBounds]
  split
  · next lt =>
    rw [Array.countP_set lt, Array.getElem?_eq_getElem lt, Option.join_some]
    cases buckets[i] <;> cases content <;> rfl
  · rfl

/-- The table with another content in one bucket, which is counted when it is taken by that and no
longer counted when it is emptied. -/
def put (t : KeyedTable S) (i : Nat) (content : Option S) : KeyedTable S where
  buckets := t.buckets.setIfInBounds i content
  entries :=
    if i < t.bucketCount then
      t.entries - (t.slotAt i).isSome.toNat + content.isSome.toNat
    else t.entries
  size_pos := by simpa using t.size_pos
  entries_eq := by rw [countP_setIfInBounds, ← t.entries_eq]; rfl

/-- The number of buckets from `i` forward to `j`. -/
def distance (t : KeyedTable S) (i j : Nat) : Nat := (j + t.bucketCount - i) % t.bucketCount

/-- Looks at `steps` buckets from `i` on for slots to move back into the hole, up to the next
empty bucket. A slot moves when the hole is nearer to its home than the slot is; its bucket is
the hole from then on. -/
def closeGap (t : KeyedTable S) : (steps hole i : Nat) → KeyedTable S
  | 0, _, _ => t
  | steps + 1, hole, i =>
    match t.slotAt i with
    | none => t
    | some slot =>
      let home := t.home (Slot.key slot)
      if t.distance home hole < t.distance home i then
        ((t.put hole (some slot)).put i none).closeGap steps i (t.next i)
      else t.closeGap steps hole (t.next i)

/-- Empties a bucket. -/
def removeAt (t : KeyedTable S) (i : Nat) : KeyedTable S :=
  (t.put i none).closeGap (t.bucketCount - 1) i (t.next i)

/-- The slot of a key, and the table without it. -/
def remove (t : KeyedTable S) (key : String) : Option (S × KeyedTable S) := do
  let i ← t.probe key
  let slot ← t.slotAt i
  return (slot, t.removeAt i)

/-- The table without the key. -/
def erase (t : KeyedTable S) (key : String) : KeyedTable S :=
  match t.remove key with
  | some (_, rest) => rest
  | none => t

/-- The table with only the slots that pass the test, and the number of the others. -/
def retain (t : KeyedTable S) (keep : S → Bool) : KeyedTable S × Nat :=
  let doomed := (t.slots.filter (!keep ·)).map Slot.key
  (doomed.foldl erase t, doomed.length)

/-- The table with the slot in the bucket, or without it when the slot is empty. -/
def settle (t : KeyedTable S) (i : Nat) (slot : S) : KeyedTable S :=
  if Slot.isEmpty slot then (t.put i (some slot)).removeAt i else t.put i (some slot)

/-- Puts a slot into a bucket, or merges it into the one that is there, which is taken out when it
ends up empty. -/
def place (i : Nat) (slot : S) : Action (KeyedTable S) Change := fun t supply =>
  match t.slotAt i with
  | none => ⟨.ok .added, t.put i (some slot), supply⟩
  | some occupant => (Slot.absorb slot occupant supply).mapState (t.settle i)

/-- Puts a slot where its key belongs, however full the table is. -/
def readmit (slot : S) : Action (KeyedTable S) Change := fun t supply =>
  match t.probe (Slot.key slot) with
  | some i => place i slot t supply
  | none => ⟨.error (.capacity (Slot.key slot) t.bucketCount), t, supply⟩

/-- The slots of the table in another number of buckets. There has to be a bucket for each. Their
keys differ, so that none is merged into another and nothing is taken from the supply. -/
def rebuild (t : KeyedTable S) (n : Nat) (supply : Supply := {}) :
    Except MergeError (KeyedTable S) :=
  let n := max n 1
  if n < t.size then
    .error (.capacity ((t.slots.getLast?.map Slot.key).getD "") n)
  else
    let fresh := Action.each readmit t.slots (withBuckets n) supply
    fresh.result.map fun _ => fresh.state

/-- The number of buckets to which a table grows. -/
def grownCount (t : KeyedTable S) : Nat :=
  t.size * Load.target.buckets / Load.target.entries + 1

/-- The bucket for a key, in the table itself where it has the key or room for it, and in the
grown table otherwise. -/
def reserve (t : KeyedTable S) (key : String) (supply : Supply) :
    Except MergeError (KeyedTable S × Nat) :=
  let fits (i : Nat) : Bool := (t.slotAt i).isSome || t.load.below Load.limit
  match (t.probe key).filter fits with
  | some i => .ok (t, i)
  | none => do
    let grown ← t.rebuild t.grownCount supply
    match grown.probe key with
    | some i => return (grown, i)
    | none => throw (.capacity key grown.bucketCount)

/-- Acts on the slot of a key, which is `create` when the key is new. A slot that ends up empty is
taken out, also when the action failed. -/
def upsert (key : String) (create : S) (act : Action S α) : Action (KeyedTable S) α :=
  fun t supply =>
    match t.reserve key supply with
    | .error e => ⟨.error e, t, supply⟩
    | .ok (t, i) => (act ((t.slotAt i).getD create) supply).mapState (t.settle i)

/-- Puts a slot into the table, or merges it into the slot that has its key. -/
def mergeSlot (slot : S) : Action (KeyedTable S) Change := fun t supply =>
  if Slot.isEmpty slot && !t.contains (Slot.key slot) then ⟨.ok .unchanged, t, supply⟩
  else
    match t.reserve (Slot.key slot) supply with
    | .error e => ⟨.error e, t, supply⟩
    | .ok (t, i) => place i slot t supply

omit [Slot S] in
theorem countP_map_option (f : S → S) (buckets : Array (Option S)) :
    (buckets.map (Option.map f)).countP Option.isSome = buckets.countP Option.isSome := by
  rw [Array.countP_map]
  congr 1
  funext content
  exact Option.isSome_map

/-- The table with `f` applied to every slot. -/
def mapSlots (t : KeyedTable S) (f : S → S) : KeyedTable S where
  buckets := t.buckets.map (Option.map f)
  entries := t.entries
  size_pos := by simpa using t.size_pos
  entries_eq := by rw [countP_map_option, t.entries_eq]

/-- The table with `f` applied to the slot of a key, which stays also when it is empty then. -/
def modify (t : KeyedTable S) (key : String) (f : S → S) : KeyedTable S :=
  match t.probe key with
  | some i => t.put i ((t.slotAt i).map f)
  | none => t

/-- Acts on the slots of some buckets in order, up to the first failure, and adds up the
answers. -/
def visit (act : Action S Nat) : Action (List (Option S)) Nat
  | [], supply => ⟨.ok 0, [], supply⟩
  | none :: rest, supply => (visit act rest supply).mapState (none :: ·)
  | some slot :: rest, supply =>
    let first := act slot supply
    match first.result with
    | .error e => ⟨.error e, some first.state :: rest, first.supply⟩
    | .ok n => ((visit act rest first.supply).map (n + ·)).mapState (some first.state :: ·)

omit [Slot S] in
@[simp] theorem length_visit (act : Action S Nat) (bs : List (Option S)) (supply : Supply) :
    (visit act bs supply).state.length = bs.length := by
  fun_induction visit act bs supply <;> simp_all [Outcome.mapState, Outcome.map]

omit [Slot S] in
theorem countP_visit (act : Action S Nat) (bs : List (Option S)) (supply : Supply) :
    (visit act bs supply).state.countP Option.isSome = bs.countP Option.isSome := by
  fun_induction visit act bs supply <;> simp_all [Outcome.mapState, Outcome.map]

/-- Acts on the slots in the order of their buckets, up to the first failure, and adds up the
answers. -/
def eachSlot (act : Action S Nat) : Action (KeyedTable S) Nat := fun t supply =>
  let done := visit act t.buckets.toList supply
  let after : KeyedTable S := {
    buckets := done.state.toArray
    entries := t.entries
    size_pos := by simpa [done] using t.size_pos
    entries_eq := by rw [List.countP_toArray, countP_visit, Array.countP_toList, t.entries_eq] }
  ⟨done.result, after, done.supply⟩

end KeyedTable

end HostProfile
