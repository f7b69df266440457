import HostProfile.Proofs.ComponentSet.Reachable

/-!
# Names of components

A component's name holds no dot, so that the first dot in the name of a variable is the one between
the component and the resource. The names of components are checked where components are created,
and a set takes no others in.
-/

namespace HostProfile

theorem Component.forall_ne_dot {name : String} (valid : checkName name = .ok ()) :
    ∀ c ∈ name.toList, c ≠ '.' := by
  unfold checkName at valid
  split at valid
  · exact absurd valid nofun
  split at valid
  · exact absurd valid nofun
  next accepted =>
  intro c member dot
  exact accepted (List.any_eq_true.mpr ⟨c, member, by rw [dot]; rfl⟩)

namespace Environment

/-- A variable of a component is split into this component and the resource. -/
theorem split?_variableName {component : String} (valid : Component.checkName component = .ok ())
    (resource : String) :
    split? (variableName component resource) = some (component, resource) := by
  have text : (variableName component resource).toList =
      component.toList ++ '.' :: resource.toList := by
    simp [variableName, String.toList_append]
  have before : ∀ c ∈ component.toList, (c != '.') = true := by
    intro c member
    exact bne_iff_ne.mpr (Component.forall_ne_dot valid c member)
  unfold split?
  simp only [text, List.dropWhile_append_of_pos before, List.takeWhile_append_of_pos before]
  simp

/-- Variables of one name come from one component and one resource. -/
theorem variableName_inj {a b x y : String} (ha : Component.checkName a = .ok ())
    (hb : Component.checkName b = .ok ()) (same : variableName a x = variableName b y) :
    a = b ∧ x = y := by
  have split := split?_variableName ha x
  rw [same, split?_variableName hb y] at split
  exact Prod.ext_iff.mp (Option.some.inj split.symm)

end Environment

namespace ComponentSet

variable {s : ComponentSet} {supply : Supply}

/-- All components of the set have proper names. -/
def Named (s : ComponentSet) : Prop :=
  ∀ (name : String) (c : Component), s.find? name = some c → Component.checkName name = .ok ()

namespace Named

theorem empty (rules : MergeRules) (scope : KeyScope) (contexts : Option ContextSet)
    (order : OutputOrder) (n : Nat) :
    Named { table := .withBuckets n, rules, scope, contexts, order } := by
  intro name c found
  exact absurd found (by simp [find?, KeyedTable.Sound.find?_withBuckets])

/-- A set remains named when it finds components only where it found some before. -/
theorem of_isNone {s' : ComponentSet} (named : s.Named)
    (same : ∀ name, s.find? name = none → s'.find? name = none) : s'.Named := by
  intro name c found
  cases before : s.find? name with
  | none =>
      rw [same name before] at found
      exact absurd found nofun
  | some old => exact named name old before

theorem upsert (named : s.Named) (wf : s.WellFormed) {name : String}
    (valid : Component.checkName name = .ok ()) {act : Action Component Change}
    (keeps : ∀ c supply, (act c supply).state.name = c.name) :
    (ComponentSet.upsert name act s supply).state.Named := by
  intro k c found
  obtain ⟨rfl, -, -⟩ | before := cases_of_find?_upsert wf keeps found
  · exact valid
  · exact named k c before

theorem mergeResource (named : s.Named) (wf : s.WellFormed) (name : String) (h : Handle Resource)
    (supply : Supply) : (ComponentSet.mergeResource name h s supply).state.Named := by
  cases valid : Component.checkName name with
  | error e =>
      rw [mergeResource_of_error valid]
      exact named
  | ok _ =>
      rw [mergeResource_of_ok valid]
      exact named.upsert wf valid fun _ _ => rfl

theorem mergeComponent (named : s.Named) (wf : s.WellFormed) {c : Component}
    (valid : Component.checkName c.name = .ok ()) (supply : Supply) :
    (ComponentSet.mergeComponent c s supply).state.Named :=
  named.upsert wf valid fun _ _ => rfl

theorem setRules (named : s.Named) (rules : MergeRules) : (s.setRules rules).Named := by
  apply named.of_isNone
  intro name absent
  rw [find?_setRules, absent, Option.map_none]

theorem setContexts (named : s.Named) (contexts : Option ContextSet) :
    (s.setContexts contexts).Named := by
  apply named.of_isNone
  intro name absent
  rw [find?_setContexts, absent, Option.map_none]

theorem remove (named : s.Named) (wf : s.WellFormed) {name : String} {c : Component}
    {rest : ComponentSet} (removed : s.remove name = some (c, rest)) : rest.Named := by
  obtain ⟨-, rfl⟩ := remove_eq_some removed
  apply named.of_isNone
  intro k absent
  rw [ComponentSet.find?, (wf.sound.erase name).2]
  split
  · rfl
  · exact absent

theorem prune (named : s.Named) (wf : s.WellFormed) : s.prune.1.Named := by
  apply named.of_isNone
  intro name absent
  rw [find?_prune wf, absent]
  rfl

theorem reevaluate (named : s.Named) (set : ContextSet) (supply : Supply) :
    (ComponentSet.reevaluate set s supply).state.Named := by
  apply named.of_isNone
  intro name absent
  have same := KeyedTable.isNone_of_rel (find?_reevaluate set s supply name)
  rw [absent] at same
  exact Option.isNone_iff_eq_none.mp same

end Named

/-! ## Sets of proper components -/

/-- The sets that come from empty ones by any operations, when every component that is merged has a
proper name, as each that was created has. -/
inductive Assembled : ComponentSet → Prop where
  | empty (rules : MergeRules) (scope : KeyScope) (contexts : Option ContextSet)
      (order : OutputOrder) (n : Nat) :
      Assembled { table := .withBuckets n, rules, scope, contexts, order }
  | mergeResource {s : ComponentSet} (name : String) (h : Handle Resource) (supply : Supply) :
      Assembled s → Assembled (mergeResource name h s supply).state
  | mergeComponent {s : ComponentSet} {c : Component} (supply : Supply) :
      Component.checkName c.name = .ok () → Assembled s →
        Assembled (mergeComponent c s supply).state
  | setRules {s : ComponentSet} (rules : MergeRules) : Assembled s → Assembled (s.setRules rules)
  | setContexts {s : ComponentSet} (contexts : Option ContextSet) :
      Assembled s → Assembled (s.setContexts contexts)
  | setOrder {s : ComponentSet} (order : OutputOrder) : Assembled s → Assembled (s.setOrder order)
  | remove {s rest : ComponentSet} {name : String} {c : Component} :
      Assembled s → s.remove name = some (c, rest) → Assembled rest
  | prune {s : ComponentSet} : Assembled s → Assembled s.prune.1
  | reevaluate {s : ComponentSet} (set : ContextSet) (supply : Supply) :
      Assembled s → Assembled (reevaluate set s supply).state

namespace Assembled

theorem reachable (assembled : s.Assembled) : s.Reachable := by
  induction assembled with
  | empty rules scope contexts order n => exact .empty rules scope contexts order n
  | mergeResource name h supply _ before => exact before.mergeResource name h supply
  | mergeComponent supply _ _ before => exact before.mergeComponent _ supply
  | setRules rules _ before => exact before.setRules rules
  | setContexts contexts _ before => exact before.setContexts contexts
  | setOrder order _ before => exact before.setOrder order
  | remove _ removed before => exact before.remove removed
  | prune _ before => exact before.prune
  | reevaluate set supply _ before => exact before.reevaluate set supply

theorem named (assembled : s.Assembled) : s.Named := by
  induction assembled with
  | empty rules scope contexts order n => exact .empty rules scope contexts order n
  | mergeResource name h supply before named =>
      exact named.mergeResource before.reachable.wellFormed name h supply
  | mergeComponent supply valid before named =>
      exact named.mergeComponent before.reachable.wellFormed valid supply
  | setRules rules _ named => exact named.setRules rules
  | setContexts contexts _ named => exact named.setContexts contexts
  | setOrder order _ named => exact named
  | remove before removed named => exact named.remove before.reachable.wellFormed removed
  | prune before named => exact named.prune before.reachable.wellFormed
  | reevaluate set supply _ named => exact named.reevaluate set supply

/-- The components of a set of proper components are proper. -/
theorem mergeSet (assembled : s.Assembled) {other : ComponentSet} (proper : other.Assembled)
    (supply : Supply) : (ComponentSet.mergeSet other s supply).state.Assembled := by
  refine Action.each_keeps (P := Assembled) (fun c member before supply assembled => ?_) s supply
    assembled
  have found := proper.reachable.wellFormed.sound.find?_eq_some_iff.mpr ⟨member, rfl⟩
  exact assembled.mergeComponent supply (proper.named c.name c found)

theorem mergeEnvironment (assembled : s.Assembled) (vars : List Environment.Variable)
    (derivation : SharedDerivation) (supply : Supply) :
    (ComponentSet.mergeEnvironment vars derivation s supply).state.Assembled :=
  mergeEnvironment_keeps (fun name h _ supply before => before.mergeResource name h supply)
    vars derivation s supply assembled

end Assembled

end ComponentSet

end HostProfile
