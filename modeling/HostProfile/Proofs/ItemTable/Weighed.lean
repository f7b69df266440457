import HostProfile.Proofs.ItemTable.Chains
import HostProfile.Proofs.ItemTable.Evaluation

/-!
# Tables in which every definition is weighed

A table that has contexts evaluates each definition as it comes in, so that the definitions in it
have the priorities of the contexts. No operation but a change of the contexts breaks this, and an
evaluation restores it for the new ones. What is stored has a context that can be evaluated, whoever
made the definition, and so an evaluation never fails.
-/

namespace HostProfile

variable {T : Type} [Item T] {set : ContextSet} {supply : Supply}

/-- The definition has the priority that its context has in these contexts. -/
def Handle.WeighedIn (set : ContextSet) (h : Handle T) : Prop :=
  set.evaluateItem h.item = .ok (Item.priority h.item)

namespace Handle

variable {x x' : Handle T}

theorem WeighedIn.not_malformed (weighed : x.WeighedIn set) (e : MergeError) :
    ¬ x.Malformed e := by
  rintro ⟨cause, malformed, -⟩
  rw [WeighedIn, ContextSet.evaluateItem_eq_error_iff.mpr malformed] at weighed
  exact absurd weighed nofun

theorem weighedIn_atPriority [LawfulItem T] {priority : Int32}
    (value : set.evaluateItem x.item = .ok priority) (supply : Supply) :
    (x.atPriority priority supply).1.WeighedIn set := by
  rw [WeighedIn, item_atPriority, LawfulItem.priority_withPriority, ← value]
  simp only [ContextSet.evaluateItem, LawfulItem.context_withPriority]

theorem Evaluated.weighedIn [LawfulItem T] (evaluated : x.Evaluated set x') :
    x'.WeighedIn set := by
  obtain ⟨priority, supply, value, rfl⟩ := evaluated
  exact weighedIn_atPriority value supply

/-- Definitions that have the priorities of the contexts are left alone by an evaluation in
them. -/
theorem eq_of_weighedIn {hs hs' : List (Handle T)} (weighed : ∀ h ∈ hs, h.WeighedIn set)
    (evaluated : List.Forall₂ (Evaluated set) hs hs') : hs' = hs := by
  induction evaluated with
  | nil => rfl
  | cons first _ ih =>
      rw [List.forall_mem_cons] at weighed
      rw [first.eq_self weighed.1, ih weighed.2]

end Handle

namespace ItemTable

/-- The table has the contexts, and every definition in it their priorities. -/
structure WeighedIn (set : ContextSet) (t : ItemTable T) : Prop where
  wellFormed : t.WellFormed
  contexts : t.contexts = some set
  handles : ∀ h ∈ t.handles, h.WeighedIn set

variable {t t' : ItemTable T}

namespace WeighedIn

theorem empty (rules : MergeRules) (bucket scope : KeyScope) (set : ContextSet)
    (order : OutputOrder) (n : Nat) :
    WeighedIn set ({ table := .withBuckets n, rules, bucket, scope, contexts := some set, order } :
      ItemTable T) where
  wellFormed := .empty rules bucket scope (some set) order n
  contexts := rfl
  handles h member := by
    rw [(WellFormed.empty rules bucket scope (some set) order n).mem_handles_iff, chainAt_empty]
      at member
    exact absurd member List.not_mem_nil

/-- What can only lose definitions stays weighed. -/
theorem of_subset (weighed : t.WeighedIn set) (wf : t'.WellFormed)
    (contexts : t'.contexts = t.contexts)
    (subset : ∀ key, ∀ h ∈ (t'.chainAt key).items, h ∈ (t.chainAt key).items) :
    t'.WeighedIn set where
  wellFormed := wf
  contexts := contexts.trans weighed.contexts
  handles h member :=
    weighed.handles h (weighed.wellFormed.mem_handles_of_mem
      (subset _ h (wf.mem_handles_iff.mp member)))

theorem remove (weighed : t.WeighedIn set) {key : String} {c : Chain T} {rest : ItemTable T}
    (removed : t.remove key = some (c, rest)) : rest.WeighedIn set := by
  have wf := weighed.wellFormed.remove removed
  have contexts : rest.contexts = t.contexts := by
    obtain ⟨-, rfl⟩ := remove_eq_some removed
    rfl
  refine weighed.of_subset wf contexts fun k h member => ?_
  rw [chainAt_remove weighed.wellFormed removed] at member
  split at member
  · exact absurd member List.not_mem_nil
  · exact member

theorem prune (weighed : t.WeighedIn set) : t.prune.1.WeighedIn set := by
  refine weighed.of_subset weighed.wellFormed.prune rfl fun k h member => ?_
  rw [chainAt_prune weighed.wellFormed] at member
  exact (List.mem_filter.mp member).1

variable [LawfulItem T]

theorem merge (weighed : t.WeighedIn set) (h : Handle T) (supply : Supply) :
    (ItemTable.merge h t supply).state.WeighedIn set where
  wellFormed := weighed.wellFormed.merge h supply
  contexts := weighed.contexts
  handles x member := by
    rw [(weighed.wellFormed.merge h supply).mem_handles_iff,
      chainAt_merge weighed.wellFormed] at member
    split at member
    · obtain ⟨items, after, old_or_new⟩ := Chain.merge_frame t.contexts h
        (t.chainAt ((ItemTable.merge h t supply).state.keyOf x.item)) supply
      rw [after] at member
      rcases old_or_new x member with old | ⟨priority, value, rfl⟩
      · exact weighed.handles x (weighed.wellFormed.mem_handles_of_mem old)
      · rw [weighed.contexts] at value
        exact Handle.weighedIn_atPriority value supply
    · exact weighed.handles x (weighed.wellFormed.mem_handles_of_mem member)

theorem invariant (set : ContextSet) : Invariant (WeighedIn (T := T) set) where
  merge weighed h supply := weighed.merge h supply
  prune := prune

end WeighedIn

theorem Adopted.weighedIn [LawfulItem T] (adopted : t.Adopted set t') (wf : t'.WellFormed) :
    t'.WeighedIn set where
  wellFormed := wf
  contexts := by rw [adopted.settings]
  handles y member := by
    obtain ⟨x, -, evaluated⟩ := Chain.exists_of_forall₂ adopted.handles.flip member
    exact Handle.Evaluated.weighedIn evaluated

end ItemTable

end HostProfile
