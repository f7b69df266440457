import HostProfile.Proofs.ComponentSet.Reachable
import HostProfile.Proofs.ItemTable.Evaluation

/-!
# Evaluating a component set again

An evaluation is a pass over the components of a set. Each component adopts the contexts when its
resources are evaluated, so that after a failure some components have new contexts and the others,
like the set, have theirs still.
-/

namespace HostProfile

variable {set : ContextSet} {e : MergeError}

namespace Component

/-- The component with its resources evaluated in the contexts, which it has adopted. -/
def Adopted (set : ContextSet) (c c' : Component) : Prop :=
  ∃ resources, c' = { c with resources } ∧ c.resources.Adopted set resources

/-- The component after an evaluation that failed at one of its resources. -/
def Halted (set : ContextSet) (e : MergeError) (c c' : Component) : Prop :=
  ∃ resources, c' = { c with resources } ∧ c.resources.Halted set e resources

theorem evaluates_reevaluate (set : ContextSet) (c : Component) (supply : Supply) :
    Evaluates (Adopted set) (Halted set)
      (fun c c' => changes c.resources.handles c'.resources.handles) c
      (onResources (ItemTable.reevaluate set) c supply) := by
  obtain ⟨n, result, adopted, total⟩ | ⟨e, result, halted⟩ :=
    ItemTable.evaluates_reevaluate set c.resources supply
  · exact .inl ⟨n, result, ⟨_, rfl, adopted⟩, total⟩
  · exact .inr ⟨e, result, _, rfl, halted⟩

variable {c c' : Component}

theorem Adopted.handles (adopted : c.Adopted set c') :
    List.Forall₂ (Handle.Evaluated set) c.resources.handles c'.resources.handles := by
  obtain ⟨resources, rfl, adopted⟩ := adopted
  exact adopted.handles

theorem Halted.handles (halted : c.Halted set e c') :
    Stopped (Handle.Evaluated set) (Handle.Halted e) c.resources.handles c'.resources.handles := by
  obtain ⟨resources, rfl, halted⟩ := halted
  exact halted.handles

end Component

namespace ComponentSet

/-- The resources in the order of buckets and chains, component by component. -/
def handles (s : ComponentSet) : List (Handle Resource) :=
  s.table.slots.flatMap (·.resources.handles)

/-- The set with all components evaluated in the contexts, which it has adopted. -/
structure Adopted (set : ContextSet) (s s' : ComponentSet) : Prop where
  settings : s' = { s with table := s'.table, contexts := some set }
  keys : KeyedTable.SameKeys s.table s'.table
  components : List.Forall₂ (Component.Adopted set) s.table.slots s'.table.slots

/-- The set after an evaluation that failed at a resource of one of its components: the components
before it have adopted the contexts, the ones behind it are as they were, and the set has its own
contexts still. -/
structure Halted (set : ContextSet) (e : MergeError) (s s' : ComponentSet) : Prop where
  settings : s' = { s with table := s'.table }
  keys : KeyedTable.SameKeys s.table s'.table
  components : Stopped (Component.Adopted set) (Component.Halted set e) s.table.slots s'.table.slots

variable {s s' : ComponentSet}

theorem Adopted.handles (adopted : s.Adopted set s') :
    List.Forall₂ (Handle.Evaluated set) s.handles s'.handles :=
  List.rel_flatMap adopted.components fun _ _ => Component.Adopted.handles

theorem Adopted.contexts (adopted : s.Adopted set s') :
    ∀ c ∈ s'.table.slots, c.resources.contexts = some set := by
  intro c member
  obtain ⟨b, -, resources, rfl, adopted⟩ := Chain.exists_of_forall₂ adopted.components.flip member
  exact congrArg ItemTable.contexts adopted.settings

theorem Halted.handles (halted : s.Halted set e s') :
    Stopped (Handle.Evaluated set) (Handle.Halted e) s.handles s'.handles :=
  halted.components.flatMap (fun _ _ => Component.Adopted.handles)
    fun _ _ => Component.Halted.handles

/-- An evaluation of a set is a pass over its components, and the contexts are adopted at the
end. -/
theorem evaluates_reevaluate (set : ContextSet) (s : ComponentSet) (supply : Supply) :
    Evaluates (Adopted set) (Halted set) (fun s s' => changes s.handles s'.handles) s
      (reevaluate set s supply) := by
  have keys : KeyedTable.SameKeys s.table (KeyedTable.eachSlot
      (Component.onResources (ItemTable.reevaluate set)) s.table supply).state :=
    KeyedTable.sameKeys_eachSlot (fun _ _ => rfl) s.table supply
  have pass := KeyedTable.evaluates_eachSlot (Component.evaluates_reevaluate set)
    (fun _ _ adopted => adopted.handles.length_eq) s.table supply
  unfold reevaluate
  rcases pass with ⟨n, result, related, total⟩ | ⟨e, result, stopped⟩
  · rw [Outcome.andThen_of_ok (by exact result)]
    exact .inl ⟨n, rfl, ⟨rfl, keys, related⟩, total⟩
  · rw [Outcome.andThen_of_error (by exact result)]
    exact .inr ⟨e, rfl, rfl, keys, stopped⟩

theorem reevaluate_ok_iff (set : ContextSet) (s : ComponentSet) (supply : Supply) :
    (∃ n, (reevaluate set s supply).result = .ok n) ↔ ∀ h ∈ s.handles, ∀ e, ¬ h.Malformed e :=
  (evaluates_reevaluate set s supply).ok_iff (fun _ => Adopted.handles) fun _ _ => Halted.handles

end ComponentSet

end HostProfile
