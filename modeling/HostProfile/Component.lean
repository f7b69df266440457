import HostProfile.ItemTable
import HostProfile.Resource

/-!
# Components

A component groups the resources of one area of configuration under its name. A resource is
addressed from outside by the name of its component, a dot and its own name, so a component's name
holds no dot.
-/

namespace HostProfile

/-- Resources under the name of their component. -/
structure Component where
  name : String
  resources : ItemTable Resource

namespace Component

/-- A component's name is not empty and holds neither a dot nor a blank. -/
def checkName (name : String) : Except ItemError Unit :=
  if name.isEmpty then .error .emptyComponentName
  else if name.toList.any fun c => c == '.' || Text.isBlank c then .error (.componentName name)
  else .ok ()

/-- The component without resources. -/
def empty (name : String) (rules : MergeRules) (scope : KeyScope) : Component :=
  ⟨name, { rules, bucket := .name, scope }⟩

/-- The component without resources, if its name is one. -/
def create (name : String) (rules : MergeRules) (scope : KeyScope := .nameArchContext) :
    Except ItemError Component := do
  checkName name
  return empty name rules scope

def setRules (c : Component) (rules : MergeRules) : Component :=
  { c with resources := c.resources.setRules rules }

def setContexts (c : Component) (contexts : Option ContextSet) : Component :=
  { c with resources := c.resources.setContexts contexts }

/-- Acts on the resources. -/
def onResources {α : Type} (act : Action (ItemTable Resource) α) : Action Component α :=
  fun c supply => (act c.resources supply).mapState fun resources => { c with resources }

/-- Merges a resource. -/
def merge (h : Handle Resource) : Action Component Change := onResources (ItemTable.merge h)

/-- Merges the resources of another component. -/
def mergeComponent (other : Component) : Action Component Change :=
  onResources (ItemTable.mergeTable other.resources)

/-- The winning definition of a resource. -/
def resource? (c : Component) (name : String) : Option (Handle Resource) :=
  c.resources.active? name

/-- The component without inactive resources. -/
def prune (c : Component) : Component := { c with resources := c.resources.prune.1 }

instance : Slot Component where
  key := name
  isEmpty c := c.resources.size == 0
  itemCount c := c.resources.itemCount
  absorb := mergeComponent

end Component

end HostProfile
