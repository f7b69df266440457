import HostProfile.Proofs.ComponentSet.Invariant
import HostProfile.Proofs.ItemTable.Chains

/-!
# The chains of a component set

What is done to a set is done to the tables of its components, and a component that the set creates
is an empty table with the rules of the set. So the chains of all components are reachable under
the rules that the set ever had.
-/

namespace HostProfile.ComponentSet

variable {s : ComponentSet} {name : String} {supply : Supply} {allowed : MergeRules → Prop}

/-- A well-formed set whose components hold reachable chains, as long as no other rules came into
force than the allowed ones. -/
structure Chained (allowed : MergeRules → Prop) (s : ComponentSet) : Prop where
  wellFormed : s.WellFormed
  rules : allowed s.rules
  resources : ∀ {name : String} {c : Component}, s.find? name = some c →
    c.resources.Chained allowed

namespace Chained

theorem empty {rules : MergeRules} (allows : allowed rules) (scope : KeyScope)
    (contexts : Option ContextSet) (order : OutputOrder) (n : Nat) :
    Chained allowed { table := .withBuckets n, rules, scope, contexts, order } where
  wellFormed := .empty rules scope contexts order n
  rules := allows
  resources found := absurd found (by simp [find?, KeyedTable.Sound.find?_withBuckets])

theorem every (chained : s.Chained allowed) :
    s.Every (ItemTable.Chained allowed) s.rules s.scope s.contexts :=
  ⟨chained.wellFormed, rfl, rfl, rfl, chained.resources⟩

theorem created (chained : s.Chained allowed) :
    ItemTable.Chained (T := Resource) allowed
      { rules := s.rules, bucket := .name, scope := s.scope, contexts := s.contexts } :=
  .empty chained.rules .name s.scope s.contexts {} _

theorem of_every {rules : MergeRules} {scope : KeyScope} {contexts : Option ContextSet}
    (allows : allowed rules) (every : s.Every (ItemTable.Chained allowed) rules scope contexts) :
    s.Chained allowed :=
  ⟨every.wellFormed, every.rules ▸ allows, every.resources⟩

theorem mergeResource (chained : s.Chained allowed) (name : String) (h : Handle Resource)
    (supply : Supply) : (ComponentSet.mergeResource name h s supply).state.Chained allowed :=
  of_every chained.rules
    (chained.every.mergeResource chained.created (ItemTable.Chained.invariant allowed) name h
      supply)

theorem mergeComponent (chained : s.Chained allowed) (c : Component) (supply : Supply) :
    (ComponentSet.mergeComponent c s supply).state.Chained allowed :=
  of_every chained.rules
    (chained.every.mergeComponent chained.created (ItemTable.Chained.invariant allowed) c supply)

theorem mergeSet (chained : s.Chained allowed) (other : ComponentSet) (supply : Supply) :
    (ComponentSet.mergeSet other s supply).state.Chained allowed :=
  of_every chained.rules
    (chained.every.mergeSet chained.created (ItemTable.Chained.invariant allowed) other supply)

theorem mergeEnvironment (chained : s.Chained allowed) (vars : List Environment.Variable)
    (derivation : SharedDerivation) (supply : Supply) :
    (ComponentSet.mergeEnvironment vars derivation s supply).state.Chained allowed :=
  of_every chained.rules (chained.every.mergeEnvironment chained.created
    (ItemTable.Chained.invariant allowed) vars derivation supply)

theorem remove (chained : s.Chained allowed) {c : Component} {rest : ComponentSet}
    (removed : s.remove name = some (c, rest)) : rest.Chained allowed :=
  of_every chained.rules (chained.every.remove removed)

theorem prune (chained : s.Chained allowed) : s.prune.1.Chained allowed :=
  of_every chained.rules (chained.every.prune (ItemTable.Chained.invariant allowed))

theorem reevaluate (chained : s.Chained allowed) (set : ContextSet) (supply : Supply) :
    (ComponentSet.reevaluate set s supply).state.Chained allowed where
  wellFormed := chained.wellFormed.reevaluate set supply
  rules := by
    rw [(state_reevaluate set s supply).2.1]
    exact chained.rules
  resources {name c'} found := by
    have rel := find?_reevaluate set s supply name
    rw [found] at rel
    obtain ⟨c, before, same | ⟨left, evaluated⟩⟩ := KeyedTable.exists_of_rel_some rel
    · rw [same]
      exact chained.resources before
    · rw [evaluated]
      exact (chained.resources before).reevaluate set left

end Chained

end HostProfile.ComponentSet
