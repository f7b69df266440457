import HostProfile.Proofs.ComponentSet.Basic

/-!
# Reachable component sets

A set is reachable when it comes from an empty one by merges, whether they succeed or fail, and by
the other operations. Every reachable set is well formed.
-/

namespace HostProfile

namespace ItemTable.Fits

variable {T : Type} [Item T] {bucket scope : KeyScope} {rules : MergeRules} {t : ItemTable T}

theorem setRules (fits : Fits bucket scope rules t) (rules' : MergeRules) :
    Fits bucket scope rules' (t.setRules rules') :=
  ⟨fits.wellFormed.setRules rules', fits.bucket, fits.scope, rfl⟩

theorem setContexts (fits : Fits bucket scope rules t) (contexts : Option ContextSet) :
    Fits bucket scope rules (t.setContexts contexts) :=
  ⟨fits.wellFormed.setContexts contexts, fits.bucket, fits.scope, fits.rules⟩

theorem prune (fits : Fits bucket scope rules t) : Fits bucket scope rules t.prune.1 :=
  ⟨fits.wellFormed.prune, fits.bucket, fits.scope, fits.rules⟩

theorem reevaluate [LawfulItem T] (fits : Fits bucket scope rules t) (set : ContextSet)
    (supply : Supply) : Fits bucket scope rules (ItemTable.reevaluate set t supply).state := by
  obtain ⟨-, same_rules, same_bucket, same_scope⟩ := state_reevaluate set t supply
  exact ⟨fits.wellFormed.reevaluate set supply, same_bucket.trans fits.bucket,
    same_scope.trans fits.scope, same_rules.trans fits.rules⟩

end ItemTable.Fits

namespace Component

variable {c : Component}

/-- A component with the same resource names is as empty as before. -/
theorem isEmpty_congr {c' : Component} (wf : c.resources.WellFormed) (wf' : c'.resources.WellFormed)
    (same : ∀ key, (c'.resources.find? key).isNone = (c.resources.find? key).isNone) :
    Slot.isEmpty c' = Slot.isEmpty c := by
  rw [Bool.eq_iff_iff, isEmpty_iff wf, isEmpty_iff wf']
  simp only [← Option.isNone_iff_eq_none, same]

end Component

namespace ComponentSet

variable {s : ComponentSet} {name : String} {supply : Supply}

theorem find?_setRules (rules : MergeRules) (name : String) :
    (s.setRules rules).find? name = (s.find? name).map (·.setRules rules) :=
  KeyedTable.find?_mapSlots (f := (Component.setRules · rules)) (fun _ => rfl) name

theorem find?_setContexts (contexts : Option ContextSet) (name : String) :
    (s.setContexts contexts).find? name = (s.find? name).map (·.setContexts contexts) :=
  KeyedTable.find?_mapSlots (f := (Component.setContexts · contexts)) (fun _ => rfl) name

namespace WellFormed

theorem empty (rules : MergeRules) (scope : KeyScope) (contexts : Option ContextSet)
    (order : OutputOrder) (n : Nat) :
    WellFormed { table := .withBuckets n, rules, scope, contexts, order } where
  sound := KeyedTable.sound_withBuckets n
  stored found := absurd found (by simp [find?, KeyedTable.Sound.find?_withBuckets])

theorem setRules (wf : s.WellFormed) (rules : MergeRules) : (s.setRules rules).WellFormed where
  sound :=
    (KeyedTable.sameKeys_mapSlots (f := (Component.setRules · rules)) fun _ => rfl).sound wf.sound
  stored {name c'} found := by
    rw [find?_setRules] at found
    obtain ⟨c, before, rfl⟩ := Option.map_eq_some_iff.mp found
    obtain ⟨fits, nonempty⟩ := wf.stored before
    have fits' := fits.setRules rules
    refine ⟨fits', (Component.isEmpty_congr fits.wellFormed fits'.wellFormed fun key => ?_).trans
      nonempty⟩
    exact (congrArg Option.isNone (ItemTable.find?_setRules rules key)).trans Option.isNone_map

theorem setContexts (wf : s.WellFormed) (contexts : Option ContextSet) :
    (s.setContexts contexts).WellFormed where
  sound :=
    (KeyedTable.sameKeys_mapSlots (f := (Component.setContexts · contexts)) fun _ => rfl).sound
      wf.sound
  stored {name c'} found := by
    rw [find?_setContexts] at found
    obtain ⟨c, before, rfl⟩ := Option.map_eq_some_iff.mp found
    obtain ⟨fits, nonempty⟩ := wf.stored before
    exact ⟨fits.setContexts contexts, nonempty⟩

theorem setOrder (wf : s.WellFormed) (order : OutputOrder) : (s.setOrder order).WellFormed where
  sound := wf.sound
  stored found := ⟨(wf.stored found).fits, (wf.stored found).nonempty⟩

end WellFormed

theorem remove_eq_some {c : Component} {rest : ComponentSet}
    (removed : s.remove name = some (c, rest)) :
    s.find? name = some c ∧ rest = { s with table := s.table.erase name } := by
  rw [remove, KeyedTable.remove_eq, Option.map_map] at removed
  obtain ⟨found, held, pair⟩ := Option.map_eq_some_iff.mp removed
  obtain ⟨rfl, rfl⟩ := Prod.ext_iff.mp pair
  exact ⟨held, rfl⟩

theorem WellFormed.remove {c : Component} {rest : ComponentSet} (wf : s.WellFormed)
    (removed : s.remove name = some (c, rest)) : rest.WellFormed := by
  obtain ⟨-, rfl⟩ := remove_eq_some removed
  obtain ⟨sound, find⟩ := wf.sound.erase name
  refine ⟨sound, fun {k c} found => ?_⟩
  rw [ComponentSet.find?, find] at found
  split at found
  · exact absurd found nofun
  · exact ⟨(wf.stored found).fits, (wf.stored found).nonempty⟩

theorem find?_prune (wf : s.WellFormed) (name : String) :
    s.prune.1.find? name =
      ((s.find? name).map Component.prune).filter (!Slot.isEmpty ·) := by
  have sound := (KeyedTable.sameKeys_mapSlots (f := Component.prune) fun _ => rfl).sound wf.sound
  exact ((sound.retain _).2.2 name).trans (congrArg (Option.filter _)
    (KeyedTable.find?_mapSlots (f := Component.prune) (fun _ => rfl) name))

theorem WellFormed.prune (wf : s.WellFormed) : s.prune.1.WellFormed where
  sound :=
    (((KeyedTable.sameKeys_mapSlots (f := Component.prune) fun _ => rfl).sound wf.sound).retain _).1
  stored found := by
    rw [find?_prune wf] at found
    obtain ⟨mapped, nonempty⟩ := Option.filter_eq_some_iff.mp found
    obtain ⟨c, before, rfl⟩ := Option.map_eq_some_iff.mp mapped
    exact ⟨(wf.stored before).fits.prune, by simpa using nonempty⟩

/-! ## Evaluating again -/

theorem state_reevaluate (set : ContextSet) (s : ComponentSet) (supply : Supply) :
    (reevaluate set s supply).state.table =
        (KeyedTable.eachSlot (Component.onResources (ItemTable.reevaluate set)) s.table
          supply).state ∧
      (reevaluate set s supply).state.rules = s.rules ∧
      (reevaluate set s supply).state.scope = s.scope := by
  unfold reevaluate Outcome.andThen
  split <;> exact ⟨rfl, rfl, rfl⟩

/-- Evaluation leaves a component or evaluates its resources, be it with a failure. -/
theorem find?_reevaluate (set : ContextSet) (s : ComponentSet) (supply : Supply) (name : String) :
    Option.Rel (fun c c' => c' = c ∨ ∃ left, c' = (Component.onResources
        (ItemTable.reevaluate set) c left).state)
      (s.find? name) ((reevaluate set s supply).state.find? name) := by
  rw [ComponentSet.find?, ComponentSet.find?, (state_reevaluate set s supply).1]
  exact KeyedTable.find?_eachSlot (fun _ _ => rfl) (fun c => .inl rfl)
    (fun c supply => .inr ⟨supply, rfl⟩) _ _ name

/-- A successful evaluation evaluates every component, and the set adopts the contexts. -/
theorem reevaluate_of_ok {set : ContextSet} {n : Nat}
    (ok : (reevaluate set s supply).result = .ok n) :
    (reevaluate set s supply).state.contexts = some set ∧ ∀ name,
      Option.Rel (fun c c' => ∃ left m,
          (ItemTable.reevaluate set c.resources left).result = .ok m ∧
          c' = { c with resources := (ItemTable.reevaluate set c.resources left).state })
        (s.find? name) ((reevaluate set s supply).state.find? name) := by
  obtain ⟨m, result, after⟩ := Outcome.andThen_eq_of_ok ok
  refine ⟨congrArg (·.state.contexts) after, ?_⟩
  intro name
  rw [ComponentSet.find?, ComponentSet.find?, (state_reevaluate set s supply).1]
  exact KeyedTable.find?_eachSlot_of_ok (fun _ _ => rfl)
    (fun c left m ok => ⟨left, m, ok, rfl⟩) _ _ result name

theorem WellFormed.reevaluate (wf : s.WellFormed) (set : ContextSet) (supply : Supply) :
    (ComponentSet.reevaluate set s supply).state.WellFormed := by
  obtain ⟨table, rules, scope⟩ := state_reevaluate set s supply
  refine ⟨?_, fun {name c'} found => ?_⟩
  · rw [table]
    exact (KeyedTable.sameKeys_eachSlot (fun _ _ => rfl) s.table supply).sound wf.sound
  · have rel := find?_reevaluate set s supply name
    rw [found] at rel
    obtain ⟨c, before, either⟩ := KeyedTable.exists_of_rel_some rel
    obtain ⟨fits, nonempty⟩ := wf.stored before
    rcases either with rfl | ⟨left, rfl⟩
    · exact ⟨by rw [rules, scope]; exact fits, nonempty⟩
    · have fits' := fits.reevaluate set left
      refine ⟨by rw [rules, scope]; exact fits', ?_⟩
      refine (Component.isEmpty_congr fits.wellFormed fits'.wellFormed fun key => ?_).trans nonempty
      exact KeyedTable.isNone_of_rel (ItemTable.find?_reevaluate set c.resources left key)

/-! ## Reachable sets -/

/-- The sets that come from empty ones by any operations. A merge may fail, and so may an
evaluation. -/
inductive Reachable : ComponentSet → Prop where
  | empty (rules : MergeRules) (scope : KeyScope) (contexts : Option ContextSet)
      (order : OutputOrder) (n : Nat) :
      Reachable { table := .withBuckets n, rules, scope, contexts, order }
  | mergeResource {s : ComponentSet} (name : String) (h : Handle Resource) (supply : Supply) :
      Reachable s → Reachable (mergeResource name h s supply).state
  | mergeComponent {s : ComponentSet} (c : Component) (supply : Supply) :
      Reachable s → Reachable (mergeComponent c s supply).state
  | setRules {s : ComponentSet} (rules : MergeRules) : Reachable s → Reachable (s.setRules rules)
  | setContexts {s : ComponentSet} (contexts : Option ContextSet) :
      Reachable s → Reachable (s.setContexts contexts)
  | setOrder {s : ComponentSet} (order : OutputOrder) : Reachable s → Reachable (s.setOrder order)
  | remove {s rest : ComponentSet} {name : String} {c : Component} :
      Reachable s → s.remove name = some (c, rest) → Reachable rest
  | prune {s : ComponentSet} : Reachable s → Reachable s.prune.1
  | reevaluate {s : ComponentSet} (set : ContextSet) (supply : Supply) :
      Reachable s → Reachable (reevaluate set s supply).state

namespace Reachable

theorem mergeSet (reachable : s.Reachable) (other : ComponentSet) (supply : Supply) :
    (ComponentSet.mergeSet other s supply).state.Reachable :=
  Action.each_keeps (P := Reachable) (fun c _ _ supply before => before.mergeComponent c supply)
    s supply reachable

theorem mergeEnvironment (reachable : s.Reachable) (vars : List Environment.Variable)
    (derivation : SharedDerivation) (supply : Supply) :
    (ComponentSet.mergeEnvironment vars derivation s supply).state.Reachable :=
  mergeEnvironment_keeps (fun name h _ supply before => before.mergeResource name h supply)
    vars derivation s supply reachable

theorem wellFormed (reachable : s.Reachable) : s.WellFormed := by
  induction reachable with
  | empty rules scope contexts order n => exact .empty rules scope contexts order n
  | mergeResource name h supply _ wf => exact wf.mergeResource name h supply
  | mergeComponent c supply _ wf => exact wf.mergeComponent c supply
  | setRules rules _ wf => exact wf.setRules rules
  | setContexts contexts _ wf => exact wf.setContexts contexts
  | setOrder order _ wf => exact wf.setOrder order
  | remove _ removed wf => exact wf.remove removed
  | prune _ wf => exact wf.prune
  | reevaluate set supply _ wf => exact wf.reevaluate set supply

end Reachable

end ComponentSet

end HostProfile
