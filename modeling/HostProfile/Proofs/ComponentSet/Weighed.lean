import HostProfile.Proofs.ComponentSet.Evaluation
import HostProfile.Proofs.ComponentSet.Invariant
import HostProfile.Proofs.ItemTable.Weighed

/-!
# Component sets in which every resource is weighed

A component that a set creates has the contexts of the set, so that where the set and its components
have the same contexts they go on having them, and every resource has the priority that these
give it.
-/

namespace HostProfile.ComponentSet

variable {set : ContextSet} {s s' : ComponentSet}

/-- The set and all its components have the contexts, and every resource has their priority. -/
def WeighedIn (set : ContextSet) (s : ComponentSet) : Prop :=
  s.Every (ItemTable.WeighedIn set) s.rules s.scope (some set)

namespace WeighedIn

theorem of_every {rules : MergeRules} {scope : KeyScope}
    (every : s.Every (ItemTable.WeighedIn set) rules scope (some set)) : s.WeighedIn set :=
  ⟨every.wellFormed, rfl, rfl, every.contexts, every.resources⟩

theorem created (rules : MergeRules) (scope : KeyScope) (set : ContextSet) :
    ItemTable.WeighedIn (T := Resource) set
      { rules, bucket := .name, scope, contexts := some set } :=
  .empty rules .name scope set {} _

theorem handles (weighed : s.WeighedIn set) : ∀ h ∈ s.handles, h.WeighedIn set := by
  intro h member
  obtain ⟨c, held, inside⟩ := List.mem_flatMap.mp member
  exact (weighed.of_mem_slots held).handles h inside

end WeighedIn

theorem Adopted.weighedIn (adopted : s.Adopted set s') (wf : s'.WellFormed) :
    s'.WeighedIn set where
  wellFormed := wf
  rules := rfl
  scope := rfl
  contexts := by rw [adopted.settings]
  resources {name c'} found := by
    have member := (wf.sound.find?_eq_some_iff.mp found).1
    obtain ⟨c, -, resources, rfl, adopted⟩ :=
      Chain.exists_of_forall₂ adopted.components.flip member
    exact adopted.weighedIn (wf.stored found).fits.wellFormed

end HostProfile.ComponentSet
