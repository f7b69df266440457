import HostProfile.Proofs.ComponentSet.Names
import HostProfile.Proofs.Context.Grammar
import HostProfile.Proofs.ItemTable.Chains

/-!
# Sets of built resources

A resource that was built has a name that identifies and a value without NUL, whatever its priority
and derivation are by now. Containers make no resources but by giving one that is merged another
priority, and so a set into which only built resources are merged stores no others.
-/

namespace HostProfile

/-! ## Built resources -/

namespace Resource

/-- The resource has the fields of one that was built. -/
def Built (r : Resource) : Prop :=
  ∃ spec made, build spec = .ok made ∧ Item.sameFields made r = true

theorem Built.of_build {spec made : Resource} (built : build spec = .ok made) : made.Built :=
  ⟨spec, made, built, Item.sameFields_refl made⟩

theorem Built.withPriority {r : Resource} (built : r.Built) (p : Int32) :
    (Item.withPriority r p).Built := by
  obtain ⟨spec, made, ok, same⟩ := built
  refine ⟨spec, made, ok, ?_⟩
  rwa [Item.sameFields_withPriority_right]

/-- A resource is built when all checks pass. -/
theorem build_eq_ok_iff {spec made : Resource} : build spec = .ok made ↔
    made = { spec with context := Text.trim spec.context } ∧
      Identifier.resourceName.check spec.name = .ok () ∧
      Identifier.resourceType.check spec.valueType = .ok () ∧
      spec.value.toList.contains (Char.ofNat 0) = false ∧
      ∃ e, Context.Expr.parse (Text.trim spec.context) = .ok e := by
  rw [build]
  dsimp only
  cases Identifier.resourceName.check spec.name with
  | error e => simp [bind, Except.bind]
  | ok _ =>
  cases Identifier.resourceType.check spec.valueType with
  | error e => simp [bind, Except.bind]
  | ok _ =>
  cases spec.value.toList.contains (Char.ofNat 0) with
  | true => simp [bind, Except.bind]
  | false =>
  cases Context.Expr.parse (Text.trim spec.context) with
  | error e => simp [bind, Except.bind]
  | ok e => simp [bind, Except.bind, pure, Except.pure, eq_comm]

/-- The name and the value of a built resource build one without a context. -/
theorem Built.build_plain {r : Resource} (built : r.Built) (d : Derivation) :
    build { name := r.name, value := r.value, derivation := d } =
      .ok { name := r.name, value := r.value, derivation := d } := by
  obtain ⟨spec, made, ok, same⟩ := built
  obtain ⟨rfl, name, -, value, -⟩ := build_eq_ok_iff.mp ok
  simp only [Item.sameFields, sameFields, Bool.and_eq_true, beq_iff_eq] at same
  obtain ⟨⟨⟨same_name, same_value⟩, -⟩, -⟩ := same
  rw [same_name] at name
  rw [same_value] at value
  have plain : Identifier.resourceType.check defaultType = .ok () := by decide
  have blank : Text.trim "" = "" := by decide
  refine build_eq_ok_iff.mpr ⟨?_, name, plain, value, .always, ?_⟩
  · rw [blank]
  · rw [blank]
    exact Context.Expr.parse_of_no_tokens (.start [])

end Resource

/-! ## Tables -/

namespace ItemTable

variable {T : Type} [Item T] {P : T → Prop} {t : ItemTable T}

/-- The table stores only definitions of which the property holds. -/
def StoresOnly (P : T → Prop) (t : ItemTable T) : Prop :=
  ∀ key, ∀ h ∈ (t.chainAt key).items, P h.item

namespace StoresOnly

theorem prune (only : t.StoresOnly P) (wf : t.WellFormed) : t.prune.1.StoresOnly P := by
  intro key h member
  rw [chainAt_prune wf] at member
  exact only key h (List.mem_filter.mp member).1

theorem setRules (only : t.StoresOnly P) (rules : MergeRules) :
    (t.setRules rules).StoresOnly P := by
  intro key h member
  rw [chainAt_setRules] at member
  exact only key h member

-- The property does not look at priorities.
variable (free : ∀ (a : T) (p : Int32), P a → P (Item.withPriority a p))

include free

theorem reevaluate (only : t.StoresOnly P) (set : ContextSet) (supply : Supply) :
    (ItemTable.reevaluate set t supply).state.StoresOnly P := by
  intro key y member
  rcases chainAt_reevaluate set t supply key with same | ⟨left, evaluated⟩
  · rw [same] at member
    exact only key y member
  · rw [evaluated] at member
    obtain ⟨x, old, rfl | ⟨p, cell, rfl⟩⟩ := Chain.exists_version_of_mem_reevaluate member
    · exact only key y old
    · exact free x.item p (only key x old)

variable [LawfulItem T]

theorem merge (only : t.StoresOnly P) (wf : t.WellFormed) {h : Handle T} (new : P h.item)
    (supply : Supply) : (ItemTable.merge h t supply).state.StoresOnly P := by
  intro key x member
  rw [chainAt_merge wf] at member
  split at member
  · obtain ⟨items, after, old_or_new⟩ := Chain.merge_frame t.contexts h (t.chainAt key) supply
    rw [after] at member
    rcases old_or_new x member with old | ⟨p, -, rfl⟩
    · exact only key x old
    · rw [Handle.item_atPriority]
      exact free h.item p new
  · exact only key x member

theorem mergeTable (only : t.StoresOnly P) (wf : t.WellFormed) {other : ItemTable T}
    (new : ∀ h ∈ other.handles, P h.item) (supply : Supply) :
    (ItemTable.mergeTable other t supply).state.StoresOnly P := by
  refine (Action.each_keeps (P := fun t : ItemTable T => t.WellFormed ∧ t.StoresOnly P)
    (fun c among _ supply before => ?_) t supply ⟨wf, only⟩).2
  refine Action.each_keeps (P := fun t : ItemTable T => t.WellFormed ∧ t.StoresOnly P)
    (fun h inside t supply before => ?_) _ supply before
  exact ⟨before.1.merge h supply,
    before.2.merge free before.1 (new h (List.mem_flatMap.mpr ⟨c, among, inside⟩)) supply⟩

end StoresOnly

end ItemTable

/-! ## Component sets -/

theorem Environment.built_of_define {v : Variable} {d : Derivation} {component : String}
    {r : Resource} (defined : define v d = .ok (component, r)) : r.Built := by
  unfold define at defined
  split at defined
  · cases defined
  next name _ =>
  cases made : Resource.build { name, value := v.2, derivation := d } with
  | error e =>
      rw [made] at defined
      cases defined
  | ok built =>
      rw [made] at defined
      cases defined
      exact .of_build made

namespace ComponentSet

variable {s : ComponentSet}

/-- The set stores only resources of which the property holds. -/
def StoresOnly (P : Resource → Prop) (s : ComponentSet) : Prop :=
  ∀ (name : String) (c : Component), s.find? name = some c → c.resources.StoresOnly P

namespace StoresOnly

variable {P : Resource → Prop}

theorem empty (P : Resource → Prop) (rules : MergeRules) (scope : KeyScope)
    (contexts : Option ContextSet) (order : OutputOrder) (n : Nat) :
    StoresOnly P { table := .withBuckets n, rules, scope, contexts, order } := by
  intro name c found
  exact absurd found (by simp [find?, KeyedTable.Sound.find?_withBuckets])

theorem componentAt (only : s.StoresOnly P) (name : String) :
    (s.componentAt name).resources.StoresOnly P := by
  cases found : s.find? name with
  | none =>
      rw [componentAt_of_none found]
      intro key h member
      rw [ItemTable.chainAt_of_none (find?_emptyComponent s name key)] at member
      exact absurd member List.not_mem_nil
  | some c =>
      rw [componentAt_of_some found]
      exact only name c found

theorem upsert (only : s.StoresOnly P) (wf : s.WellFormed) {name : String}
    {act : Action Component Change} {supply : Supply}
    (keeps : ∀ c supply, (act c supply).state.name = c.name)
    (acts : (act (s.componentAt name) supply).state.resources.StoresOnly P) :
    (ComponentSet.upsert name act s supply).state.StoresOnly P := by
  intro k c found
  obtain ⟨-, -, rfl⟩ | before := cases_of_find?_upsert wf keeps found
  · exact acts
  · exact only k c before

theorem setRules (only : s.StoresOnly P) (rules : MergeRules) :
    (s.setRules rules).StoresOnly P := by
  intro name c' found
  rw [find?_setRules] at found
  obtain ⟨c, before, rfl⟩ := Option.map_eq_some_iff.mp found
  exact (only name c before).setRules rules

theorem setContexts (only : s.StoresOnly P) (contexts : Option ContextSet) :
    (s.setContexts contexts).StoresOnly P := by
  intro name c' found
  rw [find?_setContexts] at found
  obtain ⟨c, before, rfl⟩ := Option.map_eq_some_iff.mp found
  exact only name c before

theorem remove (only : s.StoresOnly P) (wf : s.WellFormed) {name : String} {c : Component}
    {rest : ComponentSet} (removed : s.remove name = some (c, rest)) : rest.StoresOnly P := by
  obtain ⟨-, rfl⟩ := remove_eq_some removed
  intro k c found
  rw [ComponentSet.find?, (wf.sound.erase name).2] at found
  split at found
  · cases found
  · exact only k c found

theorem prune (only : s.StoresOnly P) (wf : s.WellFormed) : s.prune.1.StoresOnly P := by
  intro name c' found
  rw [find?_prune wf] at found
  obtain ⟨mapped, -⟩ := Option.filter_eq_some_iff.mp found
  obtain ⟨c, before, rfl⟩ := Option.map_eq_some_iff.mp mapped
  exact (only name c before).prune (wf.stored before).fits.wellFormed

theorem forall_mem_handles (only : s.StoresOnly P) (wf : s.WellFormed) {c : Component}
    (member : c ∈ s.table.slots) : ∀ h ∈ c.resources.handles, P h.item := by
  have found := wf.sound.find?_eq_some_iff.mpr ⟨member, rfl⟩
  intro h held
  exact only _ c found _ h ((wf.stored found).fits.wellFormed.mem_handles_iff.mp held)

variable (free : ∀ (r : Resource) (p : Int32), P r → P (Item.withPriority r p))

include free

theorem mergeResource (only : s.StoresOnly P) (wf : s.WellFormed) (name : String)
    {h : Handle Resource} (new : P h.item) (supply : Supply) :
    (ComponentSet.mergeResource name h s supply).state.StoresOnly P := by
  cases valid : Component.checkName name with
  | error e =>
      rw [mergeResource_of_error valid]
      exact only
  | ok _ =>
      rw [mergeResource_of_ok valid]
      have inside := (wf.fits_componentAt name).wellFormed
      refine only.upsert wf (fun _ _ => rfl) ?_
      exact (only.componentAt name).merge free inside new supply

theorem mergeComponent (only : s.StoresOnly P) (wf : s.WellFormed) {c : Component}
    (new : ∀ h ∈ c.resources.handles, P h.item) (supply : Supply) :
    (ComponentSet.mergeComponent c s supply).state.StoresOnly P := by
  have inside := (wf.fits_componentAt c.name).wellFormed
  refine only.upsert wf (fun _ _ => rfl) ?_
  exact (only.componentAt c.name).mergeTable free inside new supply

theorem reevaluate (only : s.StoresOnly P) (set : ContextSet) (supply : Supply) :
    (ComponentSet.reevaluate set s supply).state.StoresOnly P := by
  intro name c' found
  have rel := find?_reevaluate set s supply name
  rw [found] at rel
  obtain ⟨c, before, rfl | ⟨left, rfl⟩⟩ := KeyedTable.exists_of_rel_some rel
  · exact only name c' before
  · exact (only name c before).reevaluate free set left

end StoresOnly

/-- The sets that come from empty ones by any operations, when every resource that is merged was
built and every component that is merged has a proper name and holds built resources only. -/
inductive Furnished : ComponentSet → Prop where
  | empty (rules : MergeRules) (scope : KeyScope) (contexts : Option ContextSet)
      (order : OutputOrder) (n : Nat) :
      Furnished { table := .withBuckets n, rules, scope, contexts, order }
  | mergeResource {s : ComponentSet} (name : String) {h : Handle Resource} (supply : Supply) :
      h.item.Built → Furnished s → Furnished (mergeResource name h s supply).state
  | mergeComponent {s : ComponentSet} {c : Component} (supply : Supply) :
      Component.checkName c.name = .ok () → (∀ h ∈ c.resources.handles, h.item.Built) →
        Furnished s → Furnished (mergeComponent c s supply).state
  | setRules {s : ComponentSet} (rules : MergeRules) : Furnished s → Furnished (s.setRules rules)
  | setContexts {s : ComponentSet} (contexts : Option ContextSet) :
      Furnished s → Furnished (s.setContexts contexts)
  | setOrder {s : ComponentSet} (order : OutputOrder) : Furnished s → Furnished (s.setOrder order)
  | remove {s rest : ComponentSet} {name : String} {c : Component} :
      Furnished s → s.remove name = some (c, rest) → Furnished rest
  | prune {s : ComponentSet} : Furnished s → Furnished s.prune.1
  | reevaluate {s : ComponentSet} (set : ContextSet) (supply : Supply) :
      Furnished s → Furnished (reevaluate set s supply).state

namespace Furnished

theorem assembled (furnished : s.Furnished) : s.Assembled := by
  induction furnished with
  | empty rules scope contexts order n => exact .empty rules scope contexts order n
  | mergeResource name supply _ _ before => exact before.mergeResource name _ supply
  | mergeComponent supply valid _ _ before => exact before.mergeComponent supply valid
  | setRules rules _ before => exact before.setRules rules
  | setContexts contexts _ before => exact before.setContexts contexts
  | setOrder order _ before => exact before.setOrder order
  | remove _ removed before => exact before.remove removed
  | prune _ before => exact before.prune
  | reevaluate set supply _ before => exact before.reevaluate set supply

theorem wellFormed (furnished : s.Furnished) : s.WellFormed :=
  furnished.assembled.reachable.wellFormed

theorem named (furnished : s.Furnished) : s.Named := furnished.assembled.named

/-- Only built resources are stored. -/
theorem storesOnly_built (furnished : s.Furnished) : s.StoresOnly Resource.Built := by
  have free (r : Resource) (p : Int32) (built : r.Built) := built.withPriority p
  induction furnished with
  | empty rules scope contexts order n => exact .empty _ rules scope contexts order n
  | mergeResource name supply built before only =>
      exact only.mergeResource free before.wellFormed name built supply
  | mergeComponent supply _ built before only =>
      exact only.mergeComponent free before.wellFormed built supply
  | setRules rules _ only => exact only.setRules rules
  | setContexts contexts _ only => exact only.setContexts contexts
  | setOrder order _ only => exact only
  | remove before removed only => exact only.remove before.wellFormed removed
  | prune before only => exact only.prune before.wellFormed
  | reevaluate set supply _ only => exact only.reevaluate free set supply

/-- So is a set with the components of another one merged into it. -/
theorem mergeSet (furnished : s.Furnished) {other : ComponentSet} (proper : other.Furnished)
    (supply : Supply) : (ComponentSet.mergeSet other s supply).state.Furnished := by
  refine Action.each_keeps (P := Furnished) (fun c member _ supply before => ?_) s supply furnished
  have found := proper.wellFormed.sound.find?_eq_some_iff.mpr ⟨member, rfl⟩
  exact before.mergeComponent supply (proper.named c.name c found)
    (proper.storesOnly_built.forall_mem_handles proper.wellFormed member)

/-- So is a set with variables merged into it. -/
theorem mergeEnvironment (furnished : s.Furnished) (vars : List Environment.Variable)
    (derivation : SharedDerivation) (supply : Supply) :
    (ComponentSet.mergeEnvironment vars derivation s supply).state.Furnished := by
  refine Action.each_keeps (P := Furnished) (fun v _ s supply before => ?_) s supply furnished
  unfold mergeVariable
  cases defined : Environment.define v derivation.derivation with
  | error e => exact before
  | ok definition =>
      exact before.mergeResource _ _ (Environment.built_of_define defined)

end Furnished

end ComponentSet

end HostProfile
