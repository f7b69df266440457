import HostProfile.Chain.Basic
import HostProfile.KeyedTable

/-!
# Merging into a chain

What becomes of a definition that meets a chain is decided by the first of these that applies:

1. its handle, or a copy of it, is there already: nothing happens;
2. an entry with its key is pinned, or one of the two carries a directive: the directive decides;
3. no entry has its key: it is put at the end;
4. the rules in force, in their order;
5. otherwise the two definitions are in conflict.

Where contexts are enabled the definition is evaluated in them first, and a copy with the new
priority is merged in its stead when the priority changes.
-/

namespace HostProfile.Chain

variable {T : Type} [Item T]

/-- Whether the entry carries the directive. -/
def carries (directive : Directive) (entry : Handle T) : Bool :=
  match Item.directive entry.item with
  | .ok d => d == some directive
  | .error _ => false

/-- Whether the entry carries any directive. -/
def carriesDirective (entry : Handle T) : Bool :=
  match Item.directive entry.item with
  | .ok d => d.isSome
  | .error _ => false

/-- What the chain does with a definition: the outcome and the handles after it. -/
abbrev Decision (T : Type) : Type := Except MergeError (Change × List (Handle T))

/-- Drops the entries at the indices and puts `h` at the end. -/
def replaceAll (c : Chain T) (h : Handle T) (indices : List (Fin c.items.length)) :
    Change × List (Handle T) :=
  if indices.isEmpty then (.added, (c.push h).items)
  else (.replaced, ((c.removeIndices indices).push h).items)

/-- Carries out the directive of `h`. The entries with its key are those at the indices. -/
def obey (c : Chain T) (h : Handle T) (indices : List (Fin c.items.length)) :
    Directive → Change × List (Handle T)
  | .remove =>
    if indices.isEmpty then (.unchanged, c.items)
    else (.removed, (c.removeIndices indices).items)
  | .add | .pin => c.replaceAll h indices
  | .fallback => if indices.isEmpty then (.added, (c.push h).items) else (.unchanged, c.items)
  | .upgrade => c.replaceAll h indices

/-- Lets the directives decide, if there are any. A malformed mark comes before a pinned entry. An
entry that a directive put there outranks a definition without one. -/
def applyDirective (c : Chain T) (h : Handle T) (indices : List (Fin c.items.length)) :
    Except MergeError (Option (Change × List (Handle T))) :=
  match Item.directive h.item with
  | .error e => .error (.item e)
  | .ok directive =>
    match indices.find? fun i => carries .pin (c.itemAt i) with
    | some i =>
      .error (.pinned c.key (Item.describe (c.itemAt i).item) (Item.describe h.item))
    | none =>
      match directive with
      | some d => .ok (some (c.obey h indices d))
      | none =>
        if indices.head?.any fun i => carriesDirective (c.itemAt i) then
          .ok (some (.unchanged, c.items))
        else .ok none

/-- Neither the entry gives way to `h` nor `h` to the entry. -/
def conflict (c : Chain T) (entry h : Handle T) : MergeError :=
  .conflict (Item.kind T) c.key (Item.describe entry.item) (Item.describe h.item)

/-- Lets the rules decide between `h` and the entries with its key, which are those at the
indices. -/
def applyRules (c : Chain T) (h : Handle T) : List (Fin c.items.length) → Decision T
  | [] => .ok (.added, (c.push h).items)
  | indices@(first :: _) =>
    let identical (i : Fin c.items.length) : Bool := Item.sameFields (c.itemAt i).item h.item
    let squashed := if c.rules.squashIdentical then indices.find? identical else none
    let existing := c.itemAt first
    match squashed with
    | some i => .ok (.replaced, (c.replaceAt i h).items)
    | none =>
      if c.rules.keepAll then .ok (.added, (c.push h).items)
      else if c.rules.replace then .ok (c.replaceAll h indices)
      else if c.rules.usePriority then
        if Item.priority existing.item < Item.priority h.item then
          .ok (.replaced, (c.replaceAt first h).items)
        else if Item.priority h.item < Item.priority existing.item then .ok (.unchanged, c.items)
        else .error (c.conflict existing h)
      else .error (c.conflict existing h)

/-- Decides about a definition that is not in the chain. -/
def decide (c : Chain T) (h : Handle T) : Decision T :=
  let indices := c.matchIndices h.item
  match c.applyDirective h indices with
  | .error e => .error e
  | .ok (some decision) => .ok decision
  | .ok none => c.applyRules h indices

/-- The chain with the decision about `h` carried out. -/
def settle (h : Handle T) : Action (Chain T) Change := fun c supply =>
  match c.decide h with
  | .ok (change, items) => ⟨.ok change, { c with items }, supply⟩
  | .error e => ⟨.error e, c, supply⟩

/-- Merges a definition, evaluated in the contexts where these are given. -/
def merge (contexts : Option ContextSet) (h : Handle T) : Action (Chain T) Change :=
  fun c supply =>
    if c.contains h then ⟨.ok .unchanged, c, supply⟩
    else
      match contexts with
      | none => settle h c supply
      | some contexts =>
        match contexts.evaluateItem h.item with
        | .error e => ⟨.error (.item e), c, supply⟩
        | .ok priority =>
          if priority = Item.priority h.item then settle h c supply
          else
            let (cell, supply) := supply.take
            let copy := h.withPriority priority cell
            if c.containsCopy copy then ⟨.ok .unchanged, c, supply⟩ else settle copy c supply

/-- Merges the definitions of another chain in their order. -/
def mergeChain (contexts : Option ContextSet) (other : Chain T) : Action (Chain T) Change :=
  Action.each (merge contexts) other.items

instance : Slot (Chain T) where
  key := key
  isEmpty c := c.items.isEmpty
  itemCount c := c.items.length
  absorb other := mergeChain none other

end HostProfile.Chain
