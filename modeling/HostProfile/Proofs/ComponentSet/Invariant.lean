import HostProfile.Proofs.ComponentSet.Reachable

/-!
# Invariants of the components

What is done to a set is done to the tables of its components. So a property of tables that merging
and pruning keep holds of the resources of all components, if only it holds of those of a component
that the set creates. The settings of the set do not change on the way.
-/

namespace HostProfile.ComponentSet

/-- The set has these settings, and the property holds of the resources of every component. -/
structure Every (P : ItemTable Resource → Prop) (rules : MergeRules) (scope : KeyScope)
    (contexts : Option ContextSet) (s : ComponentSet) : Prop where
  wellFormed : s.WellFormed
  rules : s.rules = rules
  scope : s.scope = scope
  contexts : s.contexts = contexts
  resources : ∀ {name : String} {c : Component}, s.find? name = some c → P c.resources

namespace Every

variable {P : ItemTable Resource → Prop} {rules : MergeRules} {scope : KeyScope}
  {contexts : Option ContextSet} {s : ComponentSet}

theorem empty (P : ItemTable Resource → Prop) (rules : MergeRules) (scope : KeyScope)
    (contexts : Option ContextSet) (order : OutputOrder) (n : Nat) :
    Every P rules scope contexts { table := .withBuckets n, rules, scope, contexts, order } where
  wellFormed := .empty rules scope contexts order n
  rules := rfl
  scope := rfl
  contexts := rfl
  resources found := absurd found (by simp [find?, KeyedTable.Sound.find?_withBuckets])

theorem of_mem_slots (every : s.Every P rules scope contexts) {c : Component}
    (member : c ∈ s.table.slots) : P c.resources :=
  every.resources (every.wellFormed.sound.find?_eq_some_iff.mpr ⟨member, rfl⟩)

theorem remove (every : s.Every P rules scope contexts) {name : String} {c : Component}
    {rest : ComponentSet} (removed : s.remove name = some (c, rest)) :
    rest.Every P rules scope contexts := by
  have wf := every.wellFormed.remove removed
  obtain ⟨-, rfl⟩ := remove_eq_some removed
  refine ⟨wf, every.rules, every.scope, every.contexts, fun {k c} found => ?_⟩
  rw [ComponentSet.find?, (every.wellFormed.sound.erase name).2] at found
  split at found
  · cases found
  · exact every.resources found

theorem prune (every : s.Every P rules scope contexts)
    (invariant : ItemTable.Invariant P) : s.prune.1.Every P rules scope contexts where
  wellFormed := every.wellFormed.prune
  rules := every.rules
  scope := every.scope
  contexts := every.contexts
  resources found := by
    rw [find?_prune every.wellFormed] at found
    obtain ⟨mapped, -⟩ := Option.filter_eq_some_iff.mp found
    obtain ⟨c, before, rfl⟩ := Option.map_eq_some_iff.mp mapped
    exact invariant.prune (every.resources before)

variable (every : s.Every P rules scope contexts)
  (created : P { rules, bucket := .name, scope, contexts := contexts })

include every created

theorem componentAt (name : String) : P (s.componentAt name).resources := by
  cases found : s.find? name with
  | none =>
      rw [componentAt_of_none found, emptyComponent, every.rules, every.scope, every.contexts]
      exact created
  | some c =>
      rw [componentAt_of_some found]
      exact every.resources found

/-- The property holds everywhere still when an action leaves a component with it. -/
theorem upsert {name : String} {act : Action Component Change} {supply : Supply}
    (keeps : ∀ c supply, (act c supply).state.name = c.name)
    (wellFormed : (ComponentSet.upsert name act s supply).state.WellFormed)
    (acts : ∀ c supply, P c.resources → P (act c supply).state.resources) :
    (ComponentSet.upsert name act s supply).state.Every P rules scope contexts where
  wellFormed := wellFormed
  rules := every.rules
  scope := every.scope
  contexts := every.contexts
  resources {k c} found := by
    obtain ⟨-, -, rfl⟩ | before := cases_of_find?_upsert every.wellFormed keeps found
    · exact acts _ supply (every.componentAt created name)
    · exact every.resources before

variable (invariant : ItemTable.Invariant P)

include invariant

theorem mergeResource (name : String) (h : Handle Resource) (supply : Supply) :
    (ComponentSet.mergeResource name h s supply).state.Every P rules scope contexts := by
  have wf := every.wellFormed.mergeResource name h supply
  cases valid : Component.checkName name with
  | error e =>
      rw [mergeResource_of_error valid]
      exact every
  | ok _ =>
      rw [mergeResource_of_ok valid] at wf ⊢
      exact every.upsert created (fun _ _ => rfl) wf fun _ supply before =>
        invariant.merge before h supply

theorem mergeComponent (c : Component) (supply : Supply) :
    (ComponentSet.mergeComponent c s supply).state.Every P rules scope contexts :=
  every.upsert created (fun _ _ => rfl) (every.wellFormed.mergeComponent c supply)
    fun _ supply before => invariant.mergeTable before c.resources supply

theorem mergeSet (other : ComponentSet) (supply : Supply) :
    (ComponentSet.mergeSet other s supply).state.Every P rules scope contexts :=
  Action.each_keeps (P := Every P rules scope contexts)
    (fun c _ _ supply before => before.mergeComponent created invariant c supply) s supply every

theorem mergeEnvironment (vars : List Environment.Variable) (derivation : SharedDerivation)
    (supply : Supply) :
    (ComponentSet.mergeEnvironment vars derivation s supply).state.Every P rules scope contexts :=
  mergeEnvironment_keeps (P := Every P rules scope contexts)
    (fun name h _ supply before => before.mergeResource created invariant name h supply) vars
    derivation s supply every

end Every

end HostProfile.ComponentSet
