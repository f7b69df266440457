import HostProfile.Handle
import HostProfile.MergeRules
import HostProfile.Order
import HostProfile.Outcome

/-!
# Chains

A chain holds the definitions that lie under one key of a table, in the order in which they came
in: one package for several architectures, or one resource in several contexts. The scope of the
chain says which of them define the same thing.
-/

namespace HostProfile

/-- Definitions in the order in which they came in. -/
structure Chain (T : Type) where
  key : String
  items : List (Handle T) := []
  rules : MergeRules
  scope : KeyScope
  deriving DecidableEq

/-- The handle of the highest priority among the active ones; of equal ones the first. -/
def best? {T : Type} [Item T] (handles : List (Handle T)) : Option (Handle T) :=
  (handles.filter (Item.isActive ·.item)).foldl (fun best h =>
    match best with
    | some b => if Item.priority b.item ≥ Item.priority h.item then some b else some h
    | none => some h) none

namespace Chain

variable {T : Type} [Item T]

/-- The chain that merges by other rules from now on. -/
def setRules (c : Chain T) (rules : MergeRules) : Chain T := { c with rules }

/-- The definitions that are shown. -/
def visible (c : Chain T) (visibility : Visibility) : List (Handle T) :=
  c.items.filter fun h => visibility.shows (Item.priority h.item)

/-- Whether the handle itself is in the chain. -/
def contains (c : Chain T) (h : Handle T) : Bool := c.items.any (·.same h)

/-- Whether a copy of the handle is in the chain. -/
def containsCopy (c : Chain T) (h : Handle T) : Bool := c.items.any (·.copies h)

/-- Whether an entry defines the same thing as the item. -/
def collides (c : Chain T) (item : T) (entry : Handle T) : Bool :=
  c.scope.collides entry.item item

/-- The entries that define the same thing as the item. -/
def matching (c : Chain T) (item : T) : List (Handle T) := c.items.filter (c.collides item)

/-- The active definition of the highest priority. -/
def active? (c : Chain T) : Option (Handle T) := best? c.items

/-- The active definition of the highest priority for one name and architecture. -/
def activeFor? (c : Chain T) (name : String) (arch : Option String) : Option (Handle T) :=
  best? (c.items.filter fun h => Item.name h.item == name && Item.arch h.item == arch)

/-- Lets a handle compete with the winners for its name and architecture. It takes the place of
one with a lower priority, and is a new winner where there is none. -/
def compete (winners : List (Handle T)) (h : Handle T) : List (Handle T) :=
  match winners with
  | [] => [h]
  | w :: rest =>
    if Item.name w.item == Item.name h.item && Item.arch w.item == Item.arch h.item then
      (if Item.priority w.item < Item.priority h.item then h else w) :: rest
    else w :: compete rest h

/-- The winning definition for each name and architecture, in the order in which these come up. -/
def resolved (c : Chain T) : List (Handle T) :=
  (c.items.filter (Item.isActive ·.item)).foldl compete []

/-- The chain in the order of sorted output. -/
def sort (c : Chain T) : Chain T := { c with items := sortHandles c.items }

/-- The definitions that are shown, in the order of sorted output. -/
def sorted (c : Chain T) (visibility : Visibility) : List (Handle T) :=
  sortHandles (c.visible visibility)

/-- The chain without the inactive definitions. -/
def prune (c : Chain T) : Chain T := { c with items := c.items.filter (Item.isActive ·.item) }

/-- The number of inactive definitions. -/
def inactiveCount (c : Chain T) : Nat := c.items.countP (!Item.isActive ·.item)

/-- The chain with a handle at its end. -/
def push (c : Chain T) (h : Handle T) : Chain T := { c with items := c.items ++ [h] }

/-- The handle at an index. -/
def itemAt (c : Chain T) (i : Fin c.items.length) : Handle T := c.items[i]

/-- The chain with another handle at an index. -/
def replaceAt (c : Chain T) (i : Fin c.items.length) (h : Handle T) : Chain T :=
  { c with items := c.items.set i h }

/-- The chain without the handles at ascending indices. The last of them goes first, so that the
others stay at their indices. -/
def removeIndices (c : Chain T) (indices : List (Fin c.items.length)) : Chain T :=
  { c with items := indices.foldr (fun i items => items.eraseIdx i.val) c.items }

/-- The ascending indices of the entries that define the same thing as the item. -/
def matchIndices (c : Chain T) (item : T) : List (Fin c.items.length) :=
  (List.finRange c.items.length).filter fun i => c.collides item (c.itemAt i)

/-- Evaluates the handles in the contexts, up to the first whose context is malformed. A handle
whose priority changes gives way to a copy; the answer is their number. -/
def reevaluateItems (contexts : ContextSet) : Action (List (Handle T)) Nat
  | [], supply => ⟨.ok 0, [], supply⟩
  | h :: rest, supply =>
    match contexts.evaluateItem h.item with
    | .error e => ⟨.error (.item e), h :: rest, supply⟩
    | .ok priority =>
      if priority = Item.priority h.item then
        (reevaluateItems contexts rest supply).mapState (h :: ·)
      else
        let (cell, supply) := supply.take
        ((reevaluateItems contexts rest supply).map (1 + ·)).mapState
          (h.withPriority priority cell :: ·)

/-- Evaluates the definitions in the contexts, up to the first whose context is malformed. -/
def reevaluate (contexts : ContextSet) : Action (Chain T) Nat := fun c supply =>
  (reevaluateItems contexts c.items supply).mapState fun items => { c with items }

end Chain

end HostProfile
