import HostProfile.Component
import HostProfile.Config.Settings
import HostProfile.Environment

/-!
# Component sets

A component set keeps components under their names. A component that the set creates merges by
the set's rules and scope, and is evaluated in the set's contexts.
-/

namespace HostProfile

/-- Components under their names. -/
structure ComponentSet where
  table : KeyedTable Component := .withBuckets KeyedTable.initialBuckets
  rules : MergeRules := .standard
  scope : KeyScope := .nameArchContext
  contexts : Option ContextSet := none
  order : OutputOrder := {}

namespace ComponentSet

/-- The empty set of a configuration. -/
def ofSettings (settings : Config.Settings) : Except Config.Error ComponentSet := do
  return {
    rules := ← MergeRules.ofNames settings.merge.resources
    scope := settings.keys.resourceScope
    contexts := some (← settings.contextSet)
    order := settings.output.order }

def setRules (s : ComponentSet) (rules : MergeRules) : ComponentSet :=
  { s with rules, table := s.table.mapSlots (·.setRules rules) }

def setContexts (s : ComponentSet) (contexts : Option ContextSet) : ComponentSet :=
  { s with contexts, table := s.table.mapSlots (·.setContexts contexts) }

def setOrder (s : ComponentSet) (order : OutputOrder) : ComponentSet := { s with order }

/-- The number of components. -/
def size (s : ComponentSet) : Nat := s.table.size

/-- The number of resources. -/
def itemCount (s : ComponentSet) : Nat := s.table.itemCount

/-- The component that the set creates under a name. -/
def emptyComponent (s : ComponentSet) (name : String) : Component :=
  (Component.empty name s.rules s.scope).setContexts s.contexts

/-- Acts on the component of a name, which is created when it is new. -/
def upsert (name : String) (act : Action Component Change) : Action ComponentSet Change :=
  fun s supply =>
    (KeyedTable.upsert name (s.emptyComponent name) act s.table supply).mapState
      fun table => { s with table }

/-- Merges a resource into a component. -/
def mergeResource (component : String) (h : Handle Resource) : Action ComponentSet Change :=
  match Component.checkName component with
  | .error e => Action.fail (.item e)
  | .ok () => upsert component (Component.merge h)

/-- Merges the resources of a component into the component of the same name. -/
def mergeComponent (c : Component) : Action ComponentSet Change :=
  upsert c.name (Component.mergeComponent c)

/-- Merges the components of another set. -/
def mergeSet (other : ComponentSet) : Action ComponentSet Change :=
  Action.each mergeComponent other.table.slots

/-- Merges the resource that a variable defines, all with one derivation. -/
def mergeVariable (derivation : SharedDerivation) (v : Environment.Variable) :
    Action ComponentSet Change :=
  match Environment.define v derivation.derivation with
  | .error e => Action.fail (.item e)
  | .ok (component, resource) => fun s supply =>
    let (cell, supply) := supply.take
    mergeResource component ⟨cell, derivation.cell, resource⟩ s supply

/-- Merges the resources that variables define. -/
def mergeEnvironment (vars : List Environment.Variable) (derivation : SharedDerivation) :
    Action ComponentSet Change :=
  Action.each (mergeVariable derivation) vars

/-- The component of a name. -/
def find? (s : ComponentSet) (name : String) : Option Component := s.table.find? name

def contains (s : ComponentSet) (name : String) : Bool := s.table.contains name

/-- The winning definition of a resource of a component. -/
def resource? (s : ComponentSet) (component resource : String) : Option (Handle Resource) := do
  (← s.find? component).resource? resource

/-- The component of a name, and the set without it. -/
def remove (s : ComponentSet) (name : String) : Option (Component × ComponentSet) :=
  (s.table.remove name).map fun (component, table) => (component, { s with table })

/-- The resources that are shown, each with the name of its component, in the order of buckets and
chains. -/
def visible (s : ComponentSet) (visibility : Visibility) : List (String × Handle Resource) :=
  s.table.slots.flatMap fun c => (c.resources.visible visibility).map fun h => (c.name, h)

/-- The names of the components in order, each with the resources that are shown of the component;
those without any are left out. -/
def sortedBy (s : ComponentSet) (order : OutputOrder) : List (String × List (Handle Resource)) :=
  let components := s.table.slots.mergeSort fun a b => (order.case.compare a.name b.name).isLE
  (components.map fun c => (c.name, c.resources.sortedBy order)).filter (!·.2.isEmpty)

/-- The sorted output of the set. -/
def sorted (s : ComponentSet) : List (String × List (Handle Resource)) := s.sortedBy s.order

/-- The active values as variables, in the order of their names. -/
def environment (s : ComponentSet) : List Environment.Variable :=
  let vars := s.table.slots.flatMap fun c =>
    c.resources.table.slots.filterMap fun chain =>
      chain.active?.map fun h => (Environment.variableName c.name chain.key, h.item.value)
  vars.mergeSort fun a b => (compare a.1 b.1).isLE

/-- The active contents in their canonical order. -/
def contents (s : ComponentSet) : Json := toJson (s.sortedBy .canonical)

/-- The digest of the active contents. -/
def signature (s : ComponentSet) : String := Digest.ofText s.contents.render

/-- The set without inactive resources and the components that held no others, and their
number. -/
def prune (s : ComponentSet) : ComponentSet × Nat :=
  let pruned := s.table.slots.foldr (fun c n => c.resources.prune.2 + n) 0
  let table := (s.table.mapSlots Component.prune).retain (!Slot.isEmpty ·)
  ({ s with table := table.1 }, pruned)

/-- Evaluates the resources in new contexts, component by component. Each component adopts the
contexts once its resources are evaluated, and the set when none fails. The answer is the number
of resources whose priority changed. -/
def reevaluate (contexts : ContextSet) : Action ComponentSet Nat := fun s supply =>
  ((KeyedTable.eachSlot (Component.onResources (ItemTable.reevaluate contexts)) s.table
    supply).mapState fun table => { s with table }).andThen fun changed s supply =>
      ⟨.ok changed, { s with contexts := some contexts }, supply⟩

end ComponentSet

end HostProfile
