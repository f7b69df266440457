import HostProfile.Proofs.Chain.Merge
import Mathlib.Data.List.Forall2

/-!
# Evaluating a chain again

Evaluation lets each handle stay or give way to a copy with another priority. So the handles of a
chain correspond one to one to those before, and a definition that was stored still has a copy
there. When no context is malformed, all of them have the priority of the contexts.
-/

namespace HostProfile

variable {T : Type} [Item T]

namespace Handle

/-- The second handle is the first one, or a copy of it with another priority. -/
def Version (x y : Handle T) : Prop := y = x ∨ ∃ priority cell, y = x.withPriority priority cell

/-- The second handle is the first one at its priority in the contexts. -/
def Evaluated (set : ContextSet) (x y : Handle T) : Prop :=
  ∃ priority supply, set.evaluateItem x.item = .ok priority ∧ y = (x.atPriority priority supply).1

/-- Both are copies of one definition: they have equal fields over a shared derivation. -/
def Kin (x y : Handle T) : Prop := x.origin = y.origin ∧ Item.sameFields x.item y.item = true

theorem version_atPriority (x : Handle T) (priority : Int32) (supply : Supply) :
    x.Version (x.atPriority priority supply).1 := by
  unfold atPriority
  split
  · exact .inl rfl
  · exact .inr ⟨priority, supply.next, rfl⟩

variable [LawfulItem T]

theorem Version.kin {x y : Handle T} (h : x.Version y) : x.Kin y := by
  rcases h with rfl | ⟨priority, cell, rfl⟩
  · exact ⟨rfl, Item.sameFields_refl _⟩
  · exact ⟨rfl, by simp [Item.sameFields_refl]⟩

theorem Version.key_eq {x y : Handle T} (h : x.Version y) (scope : KeyScope) :
    scope.key y.item = scope.key x.item := by
  rcases h with rfl | ⟨priority, cell, rfl⟩
  · rfl
  · exact KeyScope.key_withPriority scope x.item priority

theorem Version.directive_eq {x y : Handle T} (h : x.Version y) :
    Item.directive y.item = Item.directive x.item := by
  rcases h with rfl | ⟨priority, cell, rfl⟩
  · rfl
  · exact Item.directive_withPriority x.item priority

namespace Kin

variable {x y z : Handle T}

theorem trans (xy : x.Kin y) (yz : y.Kin z) : x.Kin z :=
  ⟨xy.1.trans yz.1, Item.sameFields_trans xy.2 yz.2⟩

theorem symm (xy : x.Kin y) : y.Kin x :=
  ⟨xy.1.symm, (Item.sameFields_comm _ _).trans xy.2⟩

theorem evaluateItem_eq (xy : x.Kin y) (set : ContextSet) :
    set.evaluateItem x.item = set.evaluateItem y.item := by
  unfold ContextSet.evaluateItem
  rw [Item.eq_of_sameFields xy.2 Item.context LawfulItem.context_withPriority
    LawfulItem.context_withDerivation]

omit [LawfulItem T] in
/-- Copies of one definition with one priority are told apart by their cells only. -/
theorem copies_iff : x.copies y = true ↔ x.Kin y ∧ Item.priority x.item = Item.priority y.item := by
  simp only [copies, Kin, Bool.and_eq_true, beq_iff_eq]
  constructor
  · rintro ⟨⟨priority, origin⟩, fields⟩
    exact ⟨⟨origin, fields⟩, priority⟩
  · rintro ⟨⟨origin, fields⟩, priority⟩
    exact ⟨⟨priority, origin⟩, fields⟩

end Kin

end Handle

namespace Chain

variable {set : ContextSet}

/-- Every element of the first of two lists that correspond has its counterpart in the second. -/
theorem exists_of_forall₂ {α β : Type} {R : α → β → Prop} {as : List α} {bs : List β}
    (related : List.Forall₂ R as bs) {a : α} (member : a ∈ as) : ∃ b ∈ bs, R a b := by
  induction related with
  | nil => exact absurd member List.not_mem_nil
  | cons first _ ih =>
      rcases List.mem_cons.mp member with rfl | member
      · exact ⟨_, List.mem_cons_self, first⟩
      · obtain ⟨b, found, related⟩ := ih member
        exact ⟨b, List.mem_cons_of_mem _ found, related⟩

/-- Evaluation leaves each handle or puts a copy in its place, also when it fails at one. -/
theorem reevaluateItems_version (items : List (Handle T)) (supply : Supply) :
    List.Forall₂ Handle.Version items (reevaluateItems set items supply).state := by
  fun_induction reevaluateItems set items supply with
  | case1 => exact .nil
  | case2 => exact List.forall₂_same.mpr fun _ _ => .inl rfl
  | case3 _ _ _ _ ih => exact .cons (.inl rfl) ih
  | case4 _ _ _ priority _ _ cell _ _ ih => exact .cons (.inr ⟨priority, cell, rfl⟩) ih

/-- When no context is malformed, every handle is evaluated. -/
theorem reevaluateItems_evaluated (items : List (Handle T)) (supply : Supply) :
    ∀ n, (reevaluateItems set items supply).result = .ok n →
      List.Forall₂ (Handle.Evaluated set) items (reevaluateItems set items supply).state := by
  fun_induction reevaluateItems set items supply with
  | case1 => exact fun _ _ => .nil
  | case2 => exact fun _ ok => absurd ok nofun
  | case3 h rest supply value ih =>
      intro n ok
      refine .cons ⟨_, supply, value, ?_⟩ (ih n ok)
      rw [Handle.atPriority_self]
  | case4 h rest supply priority value changed cell left taken ih =>
      intro n ok
      obtain ⟨m, rest_ok, -⟩ := Outcome.result_map_eq_ok ok
      refine .cons ⟨priority, supply, value, ?_⟩ (ih m rest_ok)
      obtain ⟨rfl, -⟩ := Prod.ext_iff.mp taken
      rw [Handle.atPriority_of_ne changed]
      rfl

end Chain

end HostProfile
