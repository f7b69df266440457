import HostProfile.Proofs.ComponentSet.Names
import HostProfile.Proofs.ItemTable.Indistinguishable

/-!
# Component sets that cannot be told apart

Sets that find components which cannot be told apart differ at most in buckets, those of the set and
those of its components. A merge that fails leaves such a set behind, also where it had created the
component.
-/

namespace HostProfile

namespace Component

/-- The second component shows what the first one does. -/
structure Indistinguishable (c c' : Component) : Prop where
  name : c'.name = c.name
  resources : c.resources.Indistinguishable c'.resources

theorem Indistinguishable.refl (c : Component) : c.Indistinguishable c := ⟨rfl, .refl _⟩

theorem Indistinguishable.trans {c c' c'' : Component} (first : c.Indistinguishable c')
    (second : c'.Indistinguishable c'') : c.Indistinguishable c'' :=
  ⟨second.name.trans first.name, first.resources.trans second.resources⟩

/-- A merge that fails shows nowhere. -/
theorem Indistinguishable.of_merge_eq_error {c : Component} {h : Handle Resource} {supply : Supply}
    {e : MergeError} (wf : c.resources.WellFormed)
    (failed : (merge h c supply).result = .error e) :
    c.Indistinguishable (merge h c supply).state :=
  ⟨rfl, .of_merge_eq_error wf failed⟩

theorem Indistinguishable.isEmpty_eq {c c' : Component} (same : c.Indistinguishable c') :
    Slot.isEmpty c' = Slot.isEmpty c :=
  congrArg (· == 0) same.resources.size

/-- The active values of a component as variables, in the order of buckets. -/
def environment (c : Component) : List Environment.Variable :=
  c.resources.table.slots.filterMap fun chain =>
    chain.active?.map fun h => (Environment.variableName c.name chain.key, h.item.value)

theorem mem_environment {c : Component} {v : Environment.Variable} : v ∈ c.environment ↔
    ∃ chain ∈ c.resources.table.slots, ∃ h, chain.active? = some h ∧
      (Environment.variableName c.name chain.key, h.item.value) = v := by
  simp only [environment, List.mem_filterMap, Option.map_eq_some_iff]

theorem Indistinguishable.perm_environment {c c' : Component} (same : c.Indistinguishable c') :
    c.environment.Perm c'.environment := by
  unfold environment
  rw [same.name]
  exact same.resources.slots.symm.filterMap _

end Component

namespace ComponentSet

variable {s s' : ComponentSet} {name : String} {supply : Supply}

/-- The second set shows what the first one does, and its components show what those of the first
one do. -/
structure Indistinguishable (s s' : ComponentSet) : Prop where
  find? : ∀ name, Option.Rel Component.Indistinguishable (s.find? name) (s'.find? name)
  size : s'.size = s.size
  itemCount : s'.itemCount = s.itemCount
  rules : s'.rules = s.rules
  scope : s'.scope = s.scope
  contexts : s'.contexts = s.contexts
  order : s'.order = s.order
  sortedBy : s'.sortedBy = s.sortedBy
  environment : s'.environment = s.environment
  signature : s'.signature = s.signature

/-! ## Variables -/

theorem environment_eq (s : ComponentSet) :
    s.environment = (s.table.slots.flatMap Component.environment).mergeSort
      fun v w => (compareOn Prod.fst v w).isLE := rfl

/-- Two variables of a set with one name are the same. -/
theorem eq_of_variableName_eq (wf : s.WellFormed) (named : s.Named) {v w : Environment.Variable}
    (hv : v ∈ s.table.slots.flatMap Component.environment)
    (hw : w ∈ s.table.slots.flatMap Component.environment) (same : v.1 = w.1) : v = w := by
  obtain ⟨c, hc, member⟩ := List.mem_flatMap.mp hv
  obtain ⟨c', hc', member'⟩ := List.mem_flatMap.mp hw
  obtain ⟨chain, held, h, active, rfl⟩ := Component.mem_environment.mp member
  obtain ⟨chain', held', h', active', rfl⟩ := Component.mem_environment.mp member'
  have found := wf.sound.find?_eq_some_iff.mpr ⟨hc, rfl⟩
  have found' := wf.sound.find?_eq_some_iff.mpr ⟨hc', rfl⟩
  obtain ⟨names, keys⟩ :=
    Environment.variableName_inj (named _ c found) (named _ c' found') same
  obtain rfl : c = c' := wf.sound.eq_of_key_eq hc hc' names
  have chains := (wf.stored found).fits.wellFormed.sound
  obtain rfl : chain = chain' := chains.eq_of_key_eq held held' keys
  rw [active] at active'
  rw [Option.some.inj active']

/-! ## Failures -/

namespace Indistinguishable

theorem rel_refl (c? : Option Component) : Option.Rel Component.Indistinguishable c? c? := by
  cases c? with
  | none => exact .none
  | some c => exact .some (.refl c)

theorem refl (s : ComponentSet) : s.Indistinguishable s where
  find? name := rel_refl (s.find? name)
  size := rfl
  itemCount := rfl
  rules := rfl
  scope := rfl
  contexts := rfl
  order := rfl
  sortedBy := rfl
  environment := rfl
  signature := rfl

theorem trans {s'' : ComponentSet} (first : s.Indistinguishable s')
    (second : s'.Indistinguishable s'') : s.Indistinguishable s'' where
  find? name := KeyedTable.rel_trans (first.find? name) (second.find? name) .trans
  size := second.size.trans first.size
  itemCount := second.itemCount.trans first.itemCount
  rules := second.rules.trans first.rules
  scope := second.scope.trans first.scope
  contexts := second.contexts.trans first.contexts
  order := second.order.trans first.order
  sortedBy := second.sortedBy.trans first.sortedBy
  environment := second.environment.trans first.environment
  signature := second.signature.trans first.signature

theorem chain? (same : s.Indistinguishable s') : s'.chain? = s.chain? := by
  funext name key
  have rel := same.find? name
  unfold ComponentSet.chain?
  generalize s.find? name = c? at rel
  generalize s'.find? name = d? at rel
  cases rel with
  | none => rfl
  | some same => exact congrFun same.resources.find? key

theorem of_components (wf : s.WellFormed) (wf' : s'.WellFormed) (named : s.Named)
    (components : ∀ name, Option.Rel Component.Indistinguishable (s.find? name) (s'.find? name))
    (settings : s' = { s with table := s'.table }) : s.Indistinguishable s' := by
  have sortedBy : s'.sortedBy = s.sortedBy := by
    funext order
    have listed := KeyedTable.Sound.forall₂_mergeSort wf.sound wf'.sound components
      order.case.compare
    have shown := map_eq_of_forall₂ (f := fun c => (c.name, c.resources.sortedBy order))
      listed fun c c' same => by rw [same.name, same.resources.sortedBy]
    exact (congrArg (List.filter _) shown).symm
  have perm := KeyedTable.Sound.perm_flatMap wf.sound wf'.sound components
    fun _ _ => Component.Indistinguishable.perm_environment
  exact {
    find? := components
    size := KeyedTable.Sound.size_eq wf.sound wf'.sound components
    itemCount := KeyedTable.Sound.itemCount_eq wf.sound wf'.sound components
      fun _ _ same => same.resources.itemCount.symm
    rules := by rw [settings]
    scope := by rw [settings]
    contexts := by rw [settings]
    order := by rw [settings]
    sortedBy
    environment := by
      rw [environment_eq, environment_eq]
      refine (mergeSort_eq_of_perm perm fun v hv w hw same => ?_).symm
      exact eq_of_variableName_eq wf named hv hw (Std.LawfulEqOrd.eq_of_compare same)
    signature := by
      rw [ComponentSet.signature, ComponentSet.signature, ComponentSet.contents,
        ComponentSet.contents, sortedBy] }

end Indistinguishable

theorem rel_kept {c c' : Component} (same : c.Indistinguishable c') :
    Option.Rel Component.Indistinguishable (KeyedTable.kept c) (KeyedTable.kept c') := by
  have together := same.isEmpty_eq
  cases empty : Slot.isEmpty c with
  | true =>
      rw [KeyedTable.kept_of_isEmpty empty, KeyedTable.kept_of_isEmpty (together.trans empty)]
      exact .none
  | false =>
      rw [KeyedTable.kept_of_nonempty empty, KeyedTable.kept_of_nonempty (together.trans empty)]
      exact .some same

/-- A merge that fails shows nowhere, be it for the name of the component or for the resource. -/
theorem Indistinguishable.of_mergeResource_eq_error (wf : s.WellFormed) (named : s.Named)
    {h : Handle Resource} {e : MergeError}
    (failed : (mergeResource name h s supply).result = .error e) :
    s.Indistinguishable (mergeResource name h s supply).state := by
  have wf' := wf.mergeResource name h supply
  cases valid : Component.checkName name with
  | error e =>
      rw [mergeResource_of_error valid]
      exact .refl s
  | ok _ =>
      rw [mergeResource_of_ok valid] at failed wf' ⊢
      obtain ⟨result, -, -, find⟩ :=
        upsert_sound wf name (Component.merge h) (fun _ _ => rfl) supply
      rw [result] at failed
      have inside := (wf.fits_componentAt name).wellFormed
      have same := Component.Indistinguishable.of_merge_eq_error inside failed
      apply of_components wf wf' named _ rfl
      intro k
      rw [find]
      by_cases here : k = name
      · rw [if_pos here, here, wf.find?_eq]
        exact rel_kept same
      · rw [if_neg here]
        exact rel_refl _

end ComponentSet

end HostProfile
