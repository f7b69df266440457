import HostProfile.Item

/-!
# Handles

Containers hold items by handles. A handle has a cell of its own, by which it is known again, and
shares its derivation with the copies that were made from it.
-/

namespace HostProfile

/-- An item in a cell of its own, with the cell of its derivation. -/
structure Handle (T : Type) where
  cell : Cell
  origin : Cell
  item : T
  deriving DecidableEq

namespace Handle

variable {T : Type} [Item T]

/-- Whether both are one handle. -/
def same (a b : Handle T) : Bool := a.cell == b.cell

/-- A copy with another priority, which shares the derivation. -/
def withPriority (h : Handle T) (priority : Int32) (cell : Cell) : Handle T :=
  { h with cell, item := Item.withPriority h.item priority }

/-- A copy with another derivation. -/
def withDerivation (h : Handle T) (d : SharedDerivation) (cell : Cell) : Handle T :=
  ⟨cell, d.cell, Item.withDerivation h.item d.derivation⟩

/-- Whether both are copies of one definition with one priority: equal fields over a shared
derivation. -/
def copies (a b : Handle T) : Bool :=
  Item.priority a.item == Item.priority b.item && a.origin == b.origin &&
    Item.sameFields a.item b.item

/-- The derivation in its cell. -/
def derivation (h : Handle T) : SharedDerivation := ⟨h.origin, Item.derivation h.item⟩

/-- The cells are not stored. -/
instance : ToJson (Handle T) := ⟨fun h => toJson h.item⟩

end Handle

/-- The items of the handles in the order of sorted output. -/
def sortHandles {T : Type} [Item T] (handles : List (Handle T)) : List (Handle T) :=
  handles.mergeSort fun a b => (Item.compare a.item b.item).isLE

end HostProfile
