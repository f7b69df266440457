import HostProfile.Proofs.Chain.Reevaluate
import Mathlib.Data.List.Basic

/-!
# Reachable chains

A chain is reachable when it comes from an empty one by merges, whether they succeed or fail, and by
the other operations. Only merges bring definitions together: sorting, pruning and evaluation leave
between the entries of a chain every relation that looks at neither order nor priority.
-/

namespace HostProfile

variable {T : Type} [Item T]

/-- A relation between definitions that looks at neither their order nor their priorities. -/
structure Steady (R : T → T → Prop) : Prop where
  symm : ∀ {a b : T}, R a b → R b a
  withPriority : ∀ {a b : T} (p : Int32), R a b → R (Item.withPriority a p) b

/-- The entries with other versions of each are related as before. -/
theorem Steady.version {R : T → T → Prop} (steady : Steady R) {x y x' y' : Handle T}
    (hx : x.Version x') (hy : y.Version y') (related : R x.item y.item) : R x'.item y'.item := by
  have left {z z' : Handle T} (hz : z.Version z') {b : T} (before : R z.item b) : R z'.item b := by
    rcases hz with rfl | ⟨priority, cell, rfl⟩
    · exact before
    · exact steady.withPriority priority before
  exact left hx (steady.symm (left hy (steady.symm related)))

namespace Chain

variable {c : Chain T} {allowed : MergeRules → Prop}

/-- Lists whose elements correspond one to one carry over what holds between elements. -/
theorem pairwise_of_forall₂ {α β : Type} {V : α → β → Prop} {R : α → α → Prop}
    {S : β → β → Prop} {as : List α} {bs : List β} (corresponding : List.Forall₂ V as bs)
    (carries : ∀ {x y x' y'}, V x x' → V y y' → R x y → S x' y') (pairwise : as.Pairwise R) :
    bs.Pairwise S := by
  induction corresponding with
  | nil => exact .nil
  | cons first others ih =>
      rw [List.pairwise_cons] at pairwise ⊢
      refine ⟨?_, ih pairwise.2⟩
      intro y' member
      obtain ⟨y, old, version⟩ := exists_of_forall₂ others.flip member
      exact carries first version (pairwise.1 y old)

/-- The relation holds between any two entries. -/
def AllRelated (R : T → T → Prop) (c : Chain T) : Prop :=
  c.items.Pairwise fun x y => R x.item y.item

namespace AllRelated

variable {R : T → T → Prop}

theorem sort (steady : Steady R) (all : c.AllRelated R) : c.sort.AllRelated R := by
  refine List.Perm.pairwise ?_ all steady.symm
  exact (List.mergeSort_perm ..).symm

theorem prune (all : c.AllRelated R) : c.prune.AllRelated R := List.Pairwise.filter _ all

theorem reevaluate (steady : Steady R) (all : c.AllRelated R) (set : ContextSet)
    (supply : Supply) : (Chain.reevaluate set c supply).state.AllRelated R :=
  pairwise_of_forall₂ (reevaluateItems_version c.items supply) steady.version all

end AllRelated

theorem mem_sort {x : Handle T} : x ∈ c.sort.items ↔ x ∈ c.items := List.mem_mergeSort

/-- Every entry after an evaluation is a version of one before. -/
theorem exists_version_of_mem_reevaluate {set : ContextSet} {supply : Supply} {y : Handle T}
    (member : y ∈ (reevaluate set c supply).state.items) : ∃ x ∈ c.items, x.Version y :=
  exists_of_forall₂ (reevaluateItems_version c.items supply).flip member

/-- What the chain keeps when it takes in a definition, it keeps when it merges one. -/
theorem merge_keeps {P : Chain T → Prop} (start : P c)
    (step : ∀ g change items, c.Accepts g change items → P { c with items })
    (contexts : Option ContextSet) (h : Handle T) (supply : Supply) :
    P (merge contexts h c supply).state := by
  cases result : (merge contexts h c supply).result with
  | error e =>
      rw [state_of_merge_eq_error result]
      exact start
  | ok change =>
      rcases cases_of_merge_eq_ok result with ⟨-, same, -⟩ | ⟨-, _, items, -, accepts, after⟩
      · rw [same]
        exact start
      · rw [after]
        exact step _ change items accepts

/-! ## Reachable chains -/

/-- The chains that come from empty ones by any operations, as long as no other rules come into
force than the allowed ones. A merge may fail, and so may an evaluation. -/
inductive ReachableBy (allowed : MergeRules → Prop) : Chain T → Prop where
  | empty (key : String) {rules : MergeRules} (scope : KeyScope) :
      allowed rules → ReachableBy allowed { key, rules, scope }
  | merge {c : Chain T} (contexts : Option ContextSet) (h : Handle T) (supply : Supply) :
      ReachableBy allowed c → ReachableBy allowed (merge contexts h c supply).state
  | setRules {c : Chain T} {rules : MergeRules} :
      allowed rules → ReachableBy allowed c → ReachableBy allowed (c.setRules rules)
  | sort {c : Chain T} : ReachableBy allowed c → ReachableBy allowed c.sort
  | prune {c : Chain T} : ReachableBy allowed c → ReachableBy allowed c.prune
  | reevaluate {c : Chain T} (set : ContextSet) (supply : Supply) :
      ReachableBy allowed c → ReachableBy allowed (reevaluate set c supply).state

/-- The chains that come from empty ones by any operations under any rules. -/
abbrev Reachable (c : Chain T) : Prop := c.ReachableBy fun _ => True

/-- What becomes of a chain by merges, whether they succeed or fail, and by other rules. -/
inductive Merged (c : Chain T) : Chain T → Prop where
  | refl : Merged c c
  | merge {c' : Chain T} (contexts : Option ContextSet) (h : Handle T) (supply : Supply) :
      Merged c c' → Merged c (merge contexts h c' supply).state
  | setRules {c' : Chain T} (rules : MergeRules) : Merged c c' → Merged c (c'.setRules rules)

namespace ReachableBy

/-- The rules in force are allowed ones. -/
theorem rules (reachable : c.ReachableBy allowed) : allowed c.rules := by
  induction reachable with
  | empty _ _ allows => exact allows
  | merge _ _ _ _ allows =>
      rw [rules_merge]
      exact allows
  | setRules allows => exact allows
  | sort _ allows => exact allows
  | prune _ allows => exact allows
  | reevaluate _ _ _ allows => exact allows

end ReachableBy

/-- Merges that succeed and merges that fail keep a chain reachable, and so do other rules. -/
theorem Merged.reachable {c c' : Chain T} (run : c.Merged c') (reachable : c.Reachable) :
    c'.Reachable := by
  induction run with
  | refl => exact reachable
  | merge contexts h supply _ before => exact before.merge contexts h supply
  | setRules rules _ before => exact before.setRules trivial

end Chain

end HostProfile
