import HostProfile.Proofs.ComponentSet.Indistinguishable
import HostProfile.Proofs.ItemTable.Listing
import HostProfile.Proofs.Repeat
import HostProfile.Proofs.Replay

/-!
# Components merged resource by resource

A component is merged into a set in one go: the component of its name is looked up, or created,
once, and is stored or dropped once when all its resources are merged. Merged one at a time, the
resources look it up, create it and drop it anew each time. Both ways find the same components at
the end.
-/

namespace HostProfile

open HostProfile.Action

/-! ## All definitions of a source -/

/-- A table is merged definition by definition. -/
theorem ItemTable.mergeTable_eq {T : Type} [Item T] (other : ItemTable T) :
    mergeTable other = each merge other.handles :=
  each_flatMap merge Chain.items other.table.slots

/-- A component is merged resource by resource. -/
theorem Component.mergeComponent_eq (other : Component) :
    mergeComponent other = each merge other.resources.handles := by
  rw [mergeComponent, ItemTable.mergeTable_eq]
  exact (each_part Component.resources (fun c resources => { c with resources }) (fun _ => rfl)
    (fun _ _ => rfl) (fun _ _ _ => rfl) ItemTable.merge other.resources.handles).symm

namespace ComponentSet

variable {s s' s'' : ComponentSet} {name : String} {supply : Supply}

/-- All resources of a set with the names of their components, component by component. -/
theorem visible_all (s : ComponentSet) :
    s.visible .all = s.table.slots.flatMap fun c => c.resources.handles.map (c.name, ·) := by
  simp only [visible, ItemTable.visible_all]

/-! ## Sets that find the same -/

/-- Both sets are in order and find the same components, in buckets of their own. -/
structure SameFinds (s s' : ComponentSet) : Prop where
  left : s.WellFormed
  right : s'.WellFormed
  find? : s'.find? = s.find?
  rules : s'.rules = s.rules
  scope : s'.scope = s.scope
  contexts : s'.contexts = s.contexts
  order : s'.order = s.order

namespace SameFinds

theorem refl (wf : s.WellFormed) : s.SameFinds s := ⟨wf, wf, rfl, rfl, rfl, rfl, rfl⟩

theorem trans (first : s.SameFinds s') (second : s'.SameFinds s'') : s.SameFinds s'' where
  left := first.left
  right := second.right
  find? := second.find?.trans first.find?
  rules := second.rules.trans first.rules
  scope := second.scope.trans first.scope
  contexts := second.contexts.trans first.contexts
  order := second.order.trans first.order

theorem settings (same : s.SameFinds s') : s' = { s with table := s'.table } := by
  obtain ⟨_, _, _, _, _⟩ := s'
  obtain ⟨-, -, -, rfl, rfl, rfl, rfl⟩ := same
  rfl

theorem componentAt (same : s.SameFinds s') (name : String) :
    s'.componentAt name = s.componentAt name := by
  rw [ComponentSet.componentAt, same.find?, same.settings]
  rfl

/-- Such sets cannot be told apart. -/
theorem indistinguishable (same : s.SameFinds s') (named : s.Named) : s.Indistinguishable s' := by
  refine .of_components same.left same.right named (fun name => ?_) same.settings
  rw [same.find?]
  exact Indistinguishable.rel_refl _

/-- What is done to one component leads such sets to such sets. -/
theorem upsert (same : s.SameFinds s') {act : Action Component Change}
    (keeps : ∀ c supply, (act c supply).state.name = c.name)
    (fits : ∀ c supply, c.resources.Fits .name s.scope s.rules →
      (act c supply).state.resources.Fits .name s.scope s.rules) (supply : Supply) :
    Outcome.Alike SameFinds (ComponentSet.upsert name act s supply)
      (ComponentSet.upsert name act s' supply) := by
  have fits' : ∀ c supply, c.resources.Fits .name s'.scope s'.rules →
      (act c supply).state.resources.Fits .name s'.scope s'.rules := by
    rw [same.scope, same.rules]
    exact fits
  obtain ⟨result, left, -, find⟩ := upsert_sound same.left name act keeps supply
  obtain ⟨result', left', -, find'⟩ := upsert_sound same.right name act keeps supply
  rw [same.componentAt] at result' left' find'
  refine ⟨result.trans result'.symm, left.trans left'.symm, same.left.upsert keeps fits supply,
    same.right.upsert keeps fits' supply, ?_, same.rules, same.scope, same.contexts, same.order⟩
  funext k
  rw [find', find, same.find?]

end SameFinds

/-! ## One component -/

theorem mergeResource_eq_upsert (valid : Component.checkName name = .ok ()) :
    mergeResource name = fun h => upsert name (Component.merge h) := by
  funext h s supply
  exact mergeResource_of_ok valid

theorem name_each (hs : List (Handle Resource)) (c : Component) (supply : Supply) :
    (each Component.merge hs c supply).state.name = c.name :=
  each_keeps (P := fun after => after.name = c.name) (fun _ _ _ _ same => same) c supply rfl

theorem fits_each {scope : KeyScope} {rules : MergeRules} (hs : List (Handle Resource))
    (c : Component) (supply : Supply) (fits : c.resources.Fits .name scope rules) :
    (each Component.merge hs c supply).state.resources.Fits .name scope rules :=
  each_keeps (P := fun after => after.resources.Fits .name scope rules)
    (fun h _ _ supply before => before.merge h supply) c supply fits

/-- A component to which nothing is done is stored as it was. -/
theorem upsert_nil_alike (wf : s.WellFormed) (name : String) (supply : Supply) :
    Outcome.Alike SameFinds ⟨.ok .unchanged, s, supply⟩
      (upsert name (each Component.merge []) s supply) := by
  obtain ⟨result, left, -, find⟩ :=
    upsert_sound wf name (each Component.merge []) (fun _ _ => rfl) supply
  refine ⟨result.symm, left.symm, wf, wf.upsert (name_each []) (fits_each []) supply, ?_, rfl, rfl,
    rfl, rfl⟩
  funext k
  rw [find]
  split
  · next here =>
    rw [here]
    exact (wf.find?_eq name).symm
  · rfl

/-- A component is stored once behind two merges or behind each of them. The component that the
first one left is found by the second, because no merge of a resource leaves it empty. -/
theorem upsert_cons_alike (wf : s.WellFormed) (name : String) (h : Handle Resource)
    (rest : List (Handle Resource)) (supply : Supply) :
    Outcome.Alike SameFinds
      ((upsert name (Component.merge h) s supply).andThen fun change s supply =>
        (upsert name (each Component.merge rest) s supply).map change.aggregate)
      (upsert name (each Component.merge (h :: rest)) s supply) := by
  have first : (upsert name (Component.merge h) s supply).state.WellFormed :=
    wf.upsert (fun _ _ => rfl) (fun _ supply fits => fits.merge h supply) supply
  have whole : (upsert name (each Component.merge (h :: rest)) s supply).state.WellFormed :=
    wf.upsert (name_each (h :: rest)) (fits_each (h :: rest)) supply
  obtain ⟨result, left, -, find⟩ :=
    upsert_sound wf name (Component.merge h) (fun _ _ => rfl) supply
  obtain ⟨results, lefts, -, finds⟩ :=
    upsert_sound wf name (each Component.merge (h :: rest)) (name_each (h :: rest)) supply
  rw [each_cons] at results lefts finds
  cases merged : (Component.merge h (s.componentAt name) supply).result with
  | error e =>
      rw [Outcome.andThen_of_error merged] at results lefts finds
      rw [Outcome.andThen_of_error (result.trans merged)]
      refine ⟨results.symm, left.trans lefts.symm, first, whole, ?_, rfl, rfl, rfl, rfl⟩
      funext k
      rw [finds, find]
  | ok change =>
      have stored : (upsert name (Component.merge h) s supply).state.componentAt name =
          (Component.merge h (s.componentAt name) supply).state := by
        refine componentAt_of_some ?_
        rw [find, if_pos rfl, KeyedTable.kept_of_nonempty]
        exact Component.isEmpty_merge (wf.fits_componentAt name).wellFormed merged
      rw [Outcome.andThen_of_ok merged] at results lefts finds
      rw [Outcome.andThen_of_ok (result.trans merged), left]
      obtain ⟨result', left', -, find'⟩ := upsert_sound first name (each Component.merge rest)
        (name_each rest) (Component.merge h (s.componentAt name) supply).supply
      rw [stored] at result' left' find'
      refine ⟨?_, left'.trans lefts.symm, first.upsert (name_each rest) (fits_each rest) _, whole,
        ?_, rfl, rfl, rfl, rfl⟩
      · rw [results, Outcome.result_map, Outcome.result_map, result']
      · funext k
        rw [finds, Outcome.state_map, Outcome.state_map, find', find]
        split <;> rfl

/-- A run of merges into one component stores it once or each time anew. -/
theorem each_upsert_alike (name : String) (hs : List (Handle Resource)) {s : ComponentSet}
    (wf : s.WellFormed) (supply : Supply) :
    Outcome.Alike SameFinds (each (fun h => upsert name (Component.merge h)) hs s supply)
      (upsert name (each Component.merge hs) s supply) := by
  induction hs generalizing s supply with
  | nil => exact upsert_nil_alike wf name supply
  | cons h rest ih =>
      have first : (upsert name (Component.merge h) s supply).state.WellFormed :=
        wf.upsert (fun _ _ => rfl) (fun _ supply fits => fits.merge h supply) supply
      rw [each_cons]
      refine Outcome.Alike.trans ?_ (upsert_cons_alike wf name h rest supply) .trans
      refine Outcome.Alike.andThen ⟨rfl, rfl, .refl first⟩ fun change s s' supply same => ?_
      have others : Outcome.Alike SameFinds (upsert name (each Component.merge rest) s supply)
          (upsert name (each Component.merge rest) s' supply) :=
        same.upsert (name_each rest) (fits_each rest) supply
      exact ((ih same.left supply).trans others .trans).map change.aggregate

/-- A set finds the same when the resources of a component come singly. -/
theorem each_resources_alike (wf : s.WellFormed) (c : Component) (supply : Supply) :
    Outcome.Alike SameFinds
      (each (fun h => upsert c.name (Component.merge h)) c.resources.handles s supply)
      (mergeComponent c s supply) := by
  rw [mergeComponent, Component.mergeComponent_eq]
  exact each_upsert_alike c.name c.resources.handles wf supply

theorem each_mergeResource_alike (wf : s.WellFormed) {c : Component}
    (valid : Component.checkName c.name = .ok ()) (supply : Supply) :
    Outcome.Alike SameFinds (each (mergeResource c.name) c.resources.handles s supply)
      (mergeComponent c s supply) := by
  rw [mergeResource_eq_upsert valid]
  exact each_resources_alike wf c supply

theorem mergeComponent_alike (same : s.SameFinds s') (c : Component) (supply : Supply) :
    Outcome.Alike SameFinds (mergeComponent c s supply) (mergeComponent c s' supply) :=
  same.upsert (fun _ _ => rfl) (fun _ supply fits => fits.mergeTable c.resources supply) supply

/-! ## A whole set -/

/-- Merges a resource into the component of the name, whatever name that is. -/
def mergeInto (v : String × Handle Resource) : Action ComponentSet Change :=
  upsert v.1 (Component.merge v.2)

/-- A set finds the same when the resources of another one come singly. -/
theorem each_mergeInto_alike (wf : s.WellFormed) (other : ComponentSet) (supply : Supply) :
    Outcome.Alike SameFinds (each mergeInto (other.visible .all) s supply)
      (mergeSet other s supply) := by
  rw [visible_all, ← each_flatMap, mergeSet]
  refine each_alike (fun c _ s s' supply same => ?_) s s supply (.refl wf)
  rw [each_map]
  exact (each_resources_alike same.left c supply).trans (mergeComponent_alike same c supply) .trans

/-- Where the names of the components are proper, no merge of a resource refuses one. -/
theorem each_visible_alike (wf : s.WellFormed) {other : ComponentSet}
    (valid : ∀ c ∈ other.table.slots, Component.checkName c.name = .ok ()) (supply : Supply) :
    Outcome.Alike SameFinds (each (fun v => mergeResource v.1 v.2) (other.visible .all) s supply)
      (mergeSet other s supply) := by
  have same : each (fun v : String × Handle Resource => mergeResource v.1 v.2)
      (other.visible .all) = each mergeInto (other.visible .all) := by
    refine each_congr fun v member => ?_
    rw [visible_all, List.mem_flatMap] at member
    obtain ⟨c, held, among⟩ := member
    obtain ⟨h, -, rfl⟩ := List.mem_map.mp among
    exact congrFun (mergeResource_eq_upsert (valid c held)) h
  rw [same]
  exact each_mergeInto_alike wf other supply

end ComponentSet

end HostProfile
