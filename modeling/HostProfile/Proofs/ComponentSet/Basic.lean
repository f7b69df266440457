import HostProfile.ComponentSet
import HostProfile.Proofs.ItemTable.Reachable

/-!
# Well-formed component sets

In a well-formed set every component is a well-formed table of resources with the rules and the
scope of the set, and none is empty. The contexts of a component may differ from those of the set:
after an evaluation that failed they do.
-/

namespace HostProfile

namespace Component

theorem isEmpty_iff {c : Component} (wf : c.resources.WellFormed) :
    Slot.isEmpty c = true ↔ ∀ key, c.resources.find? key = none := by
  refine Iff.trans ?_ wf.sound.size_eq_zero_iff
  simp [Slot.isEmpty, ItemTable.size]

instance : LawfulSlot Component where
  key_absorb _ _ _ same := same

end Component

namespace ComponentSet

/-- The component of a name, which is empty where the set has none. -/
def componentAt (s : ComponentSet) (name : String) : Component :=
  (s.find? name).getD (s.emptyComponent name)

/-- A component as the set stores it. -/
structure Stored (s : ComponentSet) (c : Component) : Prop where
  fits : c.resources.Fits .name s.scope s.rules
  nonempty : Slot.isEmpty c = false

/-- The set finds each component that it holds, and each is as it should be. -/
structure WellFormed (s : ComponentSet) : Prop where
  sound : s.table.Sound
  stored : ∀ {name : String} {c : Component}, s.find? name = some c → s.Stored c

/-- The chain of a resource name in a component, where there is one. -/
def chain? (s : ComponentSet) (component key : String) : Option (Chain Resource) :=
  (s.find? component).bind fun c => c.resources.find? key

variable {s : ComponentSet} {name : String} {c : Component} {supply : Supply}

theorem name_of_find? (found : s.find? name = some c) : c.name = name := by
  obtain ⟨-, -, -, same⟩ := KeyedTable.slotAt_of_find? found
  exact same

theorem componentAt_of_some (found : s.find? name = some c) : s.componentAt name = c := by
  rw [componentAt, found, Option.getD_some]

theorem componentAt_of_none (absent : s.find? name = none) :
    s.componentAt name = s.emptyComponent name := by
  rw [componentAt, absent, Option.getD_none]

@[simp] theorem name_componentAt (s : ComponentSet) (name : String) :
    (s.componentAt name).name = name := by
  cases found : s.find? name with
  | none => rw [componentAt_of_none found]; rfl
  | some c => rw [componentAt_of_some found, name_of_find? found]

theorem find?_emptyComponent (s : ComponentSet) (name key : String) :
    (s.emptyComponent name).resources.find? key = none :=
  KeyedTable.Sound.find?_withBuckets _ key

theorem chain?_eq (s : ComponentSet) (component key : String) :
    s.chain? component key = (s.componentAt component).resources.find? key := by
  unfold chain?
  cases found : s.find? component with
  | none => rw [componentAt_of_none found, find?_emptyComponent, Option.bind_none]
  | some c => rw [componentAt_of_some found, Option.bind_some]

theorem resource?_eq_bind (s : ComponentSet) (component name : String) :
    s.resource? component name = (s.chain? component name).bind Chain.active? := by
  rw [chain?, Option.bind_assoc]
  rfl

namespace WellFormed

theorem fits_componentAt (wf : s.WellFormed) (name : String) :
    (s.componentAt name).resources.Fits .name s.scope s.rules := by
  cases found : s.find? name with
  | none =>
      rw [componentAt_of_none found]
      exact ⟨.empty s.rules .name s.scope s.contexts {} _, rfl, rfl, rfl⟩
  | some c =>
      rw [componentAt_of_some found]
      exact (wf.stored found).fits

/-- A well-formed set stores the components that are not empty. -/
theorem find?_eq (wf : s.WellFormed) (name : String) :
    s.find? name = KeyedTable.kept (s.componentAt name) := by
  cases found : s.find? name with
  | none =>
      have inside := (wf.fits_componentAt name).wellFormed
      rw [componentAt_of_none found] at inside ⊢
      have empty := (Component.isEmpty_iff inside).mpr (s.find?_emptyComponent name)
      rw [KeyedTable.kept_of_isEmpty empty]
  | some c =>
      rw [componentAt_of_some found, KeyedTable.kept_of_nonempty (wf.stored found).nonempty]

end WellFormed

/-! ## Acting on one component -/

theorem upsert_sound (wf : s.WellFormed) (name : String) (act : Action Component Change)
    (keeps : ∀ c supply, (act c supply).state.name = c.name) (supply : Supply) :
    let done := act (s.componentAt name) supply
    let after := upsert name act s supply
    after.result = done.result ∧ after.supply = done.supply ∧ after.state.table.Sound ∧
      ∀ k, after.state.find? k = if k = name then KeyedTable.kept done.state else s.find? k :=
  wf.sound.upsert act supply ((keeps _ supply).trans (s.name_componentAt name))

/-- What is found after an upsert is what the action left, or was there before. -/
theorem cases_of_find?_upsert (wf : s.WellFormed) {act : Action Component Change}
    (keeps : ∀ c supply, (act c supply).state.name = c.name) {k : String}
    (found : (upsert name act s supply).state.find? k = some c) :
    (k = name ∧ Slot.isEmpty c = false ∧ (act (s.componentAt name) supply).state = c) ∨
      s.find? k = some c := by
  rw [(upsert_sound wf name act keeps supply).2.2.2] at found
  split at found
  · next same =>
    obtain ⟨nonempty, rfl⟩ := KeyedTable.kept_eq_some_iff.mp found
    exact .inl ⟨same, nonempty, rfl⟩
  · exact .inr found

/-- Of an empty component nothing is lost when it is not stored. -/
theorem bind_kept (wf : c.resources.WellFormed) (key : String) :
    ((KeyedTable.kept c).bind fun c => c.resources.find? key) = c.resources.find? key := by
  cases empty : Slot.isEmpty c with
  | true =>
      rw [KeyedTable.kept_of_isEmpty empty, (Component.isEmpty_iff wf).mp empty key,
        Option.bind_none]
  | false => rw [KeyedTable.kept_of_nonempty empty, Option.bind_some]

/-- The chains of the other components are untouched. -/
theorem chain?_upsert (wf : s.WellFormed) {act : Action Component Change}
    (keeps : ∀ c supply, (act c supply).state.name = c.name)
    (acts : ∀ c supply, c.resources.WellFormed → (act c supply).state.resources.WellFormed)
    (supply : Supply) (component key : String) :
    (upsert name act s supply).state.chain? component key =
      if component = name then (act (s.componentAt name) supply).state.resources.find? key
      else s.chain? component key := by
  rw [chain?, (upsert_sound wf name act keeps supply).2.2.2]
  split
  · exact bind_kept (acts _ supply (wf.fits_componentAt name).wellFormed) key
  · rfl

theorem WellFormed.upsert (wf : s.WellFormed) {act : Action Component Change}
    (keeps : ∀ c supply, (act c supply).state.name = c.name)
    (fits : ∀ c supply, c.resources.Fits .name s.scope s.rules →
      (act c supply).state.resources.Fits .name s.scope s.rules) (supply : Supply) :
    (ComponentSet.upsert name act s supply).state.WellFormed := by
  obtain ⟨-, -, sound, -⟩ := upsert_sound wf name act keeps supply
  refine ⟨sound, fun {k c} found => ?_⟩
  obtain ⟨-, nonempty, rfl⟩ | before := cases_of_find?_upsert wf keeps found
  · exact ⟨fits _ supply (wf.fits_componentAt name), nonempty⟩
  · exact ⟨(wf.stored before).fits, (wf.stored before).nonempty⟩

theorem WellFormed.mergeComponent (wf : s.WellFormed) (c : Component) (supply : Supply) :
    (ComponentSet.mergeComponent c s supply).state.WellFormed :=
  wf.upsert (fun _ _ => rfl) (fun _ supply fits => fits.mergeTable c.resources supply) supply

theorem mergeResource_of_error {h : Handle Resource} {e : ItemError}
    (malformed : Component.checkName name = .error e) :
    mergeResource name h s supply = ⟨.error (.item e), s, supply⟩ := by
  rw [mergeResource, malformed]
  rfl

theorem mergeResource_of_ok {h : Handle Resource} (valid : Component.checkName name = .ok ()) :
    mergeResource name h s supply = upsert name (Component.merge h) s supply := by
  rw [mergeResource, valid]

theorem WellFormed.mergeResource (wf : s.WellFormed) (name : String) (h : Handle Resource)
    (supply : Supply) : (ComponentSet.mergeResource name h s supply).state.WellFormed := by
  cases valid : Component.checkName name with
  | error e =>
      rw [mergeResource_of_error valid]
      exact wf
  | ok _ =>
      rw [mergeResource_of_ok valid]
      exact wf.upsert (fun _ _ => rfl) (fun _ supply fits => fits.merge h supply) supply

/-- What every merge of a resource keeps, the merge of variables keeps. -/
theorem mergeEnvironment_keeps {P : ComponentSet → Prop}
    (step : ∀ name h s supply, P s → P (mergeResource name h s supply).state)
    (vars : List Environment.Variable) (derivation : SharedDerivation) :
    ∀ s supply, P s → P (mergeEnvironment vars derivation s supply).state := by
  apply Action.each_keeps
  intro v _ s supply before
  unfold mergeVariable
  cases Environment.define v derivation.derivation with
  | error e => exact before
  | ok defined => exact step defined.1 _ s _ before

/-- A merge that changes nothing leaves every chain. -/
theorem chain?_mergeResource_of_unchanged (wf : s.WellFormed) {h : Handle Resource}
    (ok : (mergeResource name h s supply).result = .ok .unchanged) :
    (mergeResource name h s supply).state.chain? = s.chain? := by
  cases valid : Component.checkName name with
  | error e => rw [mergeResource_of_error valid]
  | ok _ =>
      rw [mergeResource_of_ok valid] at ok ⊢
      have inside := (wf.fits_componentAt name).wellFormed
      have keeps (c : Component) (supply : Supply) :
          (Component.merge h c supply).state.name = c.name := rfl
      rw [(upsert_sound wf name _ keeps supply).1] at ok
      funext component key
      rw [chain?_upsert wf keeps (fun _ supply wf => wf.merge h supply)]
      split
      · next same =>
        rw [same, chain?_eq]
        exact ItemTable.find?_merge_of_unchanged inside ok key
      · rfl

end ComponentSet

end HostProfile
