import HostProfile.Chain.Merge
import HostProfile.Digest

/-!
# Tables of items

An item table keeps definitions in chains under their bucket keys. The bucket scope makes the key
under which an item is stored; the collision scope says which items of one chain define the same
thing. Where the table has contexts, definitions are evaluated in them when they come in.
-/

namespace HostProfile

/-- Chains of definitions under their bucket keys. -/
structure ItemTable (T : Type) [Item T] where
  table : KeyedTable (Chain T) := .withBuckets KeyedTable.initialBuckets
  rules : MergeRules
  /-- The parts of an item that make up its bucket key. -/
  bucket : KeyScope
  /-- The parts of an item by which it collides with others. -/
  scope : KeyScope
  contexts : Option ContextSet := none
  order : OutputOrder := {}

namespace ItemTable

variable {T : Type} [Item T]

/-- The table that merges by other rules from now on. -/
def setRules (t : ItemTable T) (rules : MergeRules) : ItemTable T :=
  { t with rules, table := t.table.mapSlots (·.setRules rules) }

/-- The table that evaluates definitions in other contexts from now on. -/
def setContexts (t : ItemTable T) (contexts : Option ContextSet) : ItemTable T :=
  { t with contexts }

def setOrder (t : ItemTable T) (order : OutputOrder) : ItemTable T := { t with order }

/-- The number of bucket keys. -/
def size (t : ItemTable T) : Nat := t.table.size

/-- The number of definitions. -/
def itemCount (t : ItemTable T) : Nat := t.table.itemCount

/-- The bucket key of an item. -/
def keyOf (t : ItemTable T) (item : T) : String := t.bucket.key item

/-- The chain of an item whose bucket key is new. -/
def emptyChain (t : ItemTable T) (key : String) : Chain T :=
  { key, rules := t.rules, scope := t.scope }

/-- Merges a definition into the chain of its bucket key. -/
def merge (h : Handle T) : Action (ItemTable T) Change := fun t supply =>
  let key := t.keyOf h.item
  (KeyedTable.upsert key (t.emptyChain key) (Chain.merge t.contexts h) t.table supply).mapState
    fun table => { t with table }

/-- The definitions in the order of buckets and chains. -/
def handles (t : ItemTable T) : List (Handle T) := t.table.slots.flatMap (·.items)

/-- Merges the definitions of a chain in their order. -/
def mergeChain (c : Chain T) : Action (ItemTable T) Change := Action.each merge c.items

/-- Merges the definitions of another table, chain by chain. -/
def mergeTable (other : ItemTable T) : Action (ItemTable T) Change :=
  Action.each mergeChain other.table.slots

/-- The chain of a bucket key. -/
def find? (t : ItemTable T) (key : String) : Option (Chain T) := t.table.find? key

def contains (t : ItemTable T) (key : String) : Bool := t.table.contains key

/-- The winning definition under a bucket key. -/
def active? (t : ItemTable T) (key : String) : Option (Handle T) := t.find? key >>= Chain.active?

/-- The chain of a bucket key, and the table without it. -/
def remove (t : ItemTable T) (key : String) : Option (Chain T × ItemTable T) :=
  (t.table.remove key).map fun (chain, table) => (chain, { t with table })

/-- The definitions that are shown, in the order of buckets and chains. -/
def visible (t : ItemTable T) (visibility : Visibility) : List (Handle T) :=
  t.table.slots.flatMap (·.visible visibility)

/-- The chains in the order of their keys. -/
def sortedChains (t : ItemTable T) (case : CaseMode) : List (Chain T) :=
  t.table.slots.mergeSort fun a b => (case.compare a.key b.key).isLE

/-- The definitions that are shown, by bucket key and then in the order of items. -/
def sortedBy (t : ItemTable T) (order : OutputOrder) : List (Handle T) :=
  (t.sortedChains order.case).flatMap (·.sorted order.visibility)

/-- The sorted output of the table. -/
def sorted (t : ItemTable T) : List (Handle T) := t.sortedBy t.order

/-- The winning definition for each name and architecture, sorted like the output. -/
def resolve (t : ItemTable T) : List (Handle T) :=
  (t.sortedChains t.order.case).flatMap fun c => sortHandles c.resolved

/-- The active contents in their canonical order. -/
def contents (t : ItemTable T) : Json := toJson (t.sortedBy .canonical)

/-- The digest of the active contents. -/
def signature (t : ItemTable T) : String := Digest.ofText t.contents.render

/-- The table without inactive definitions and the chains that held no others, and their
number. -/
def prune (t : ItemTable T) : ItemTable T × Nat :=
  let pruned := t.table.slots.foldr (fun c n => c.inactiveCount + n) 0
  let table := (t.table.mapSlots Chain.prune).retain (!Slot.isEmpty ·)
  ({ t with table := table.1 }, pruned)

/-- Evaluates the definitions in new contexts, which the table adopts when none fails. The answer
is the number of definitions whose priority changed. -/
def reevaluate (contexts : ContextSet) : Action (ItemTable T) Nat := fun t supply =>
  ((KeyedTable.eachSlot (Chain.reevaluate contexts) t.table supply).mapState
    fun table => { t with table }).andThen fun changed t supply =>
      ⟨.ok changed, t.setContexts contexts, supply⟩

end ItemTable

end HostProfile
