import HostProfile.ComponentSet
import HostProfile.PackageList

/-!
# Profiles

A profile holds what is defined for one host: the resources of its components and its packages,
evaluated in one set of contexts.
-/

namespace HostProfile

/-- The components and packages of a host. -/
structure Profile where
  components : ComponentSet := {}
  packages : PackageSet := .empty

namespace Profile

/-- The empty profile of a configuration. -/
def ofSettings (settings : Config.Settings) : Except Config.Error Profile := do
  return ⟨← ComponentSet.ofSettings settings, ← PackageSet.ofSettings settings⟩

def isEmpty (p : Profile) : Bool := p.components.size == 0 && p.packages.packages.size == 0

/-- Acts on the components. -/
def onComponents {α : Type} (act : Action ComponentSet α) : Action Profile α :=
  fun p supply => (act p.components supply).mapState fun components => { p with components }

/-- Acts on the packages. -/
def onPackages {α : Type} (act : Action PackageSet α) : Action Profile α :=
  fun p supply => (act p.packages supply).mapState fun packages => { p with packages }

/-- Merges a layer: first its components, then its packages. -/
def merge (layer : Profile) : Action Profile Change := fun p supply =>
  (onComponents (ComponentSet.mergeSet layer.components) p supply).andThen fun first p supply =>
    (onPackages (PackageSet.mergeSet layer.packages) p supply).map first.aggregate

/-- Evaluates everything in new contexts: first the components, then the packages. The answer is
the number of items whose priority changed. -/
def reevaluate (contexts : ContextSet) : Action Profile Nat := fun p supply =>
  (onComponents (ComponentSet.reevaluate contexts) p supply).andThen fun first p supply =>
    (onPackages (PackageSet.reevaluate contexts) p supply).map (first + ·)

/-- The profile without inactive items, and their number. -/
def prune (p : Profile) : Profile × Nat :=
  let (components, resources) := p.components.prune
  let (packages, others) := p.packages.prune
  (⟨components, packages⟩, resources + others)

/-- The signatures of both parts. -/
def contents (p : Profile) : Json :=
  toJson (p.components.signature, p.packages.packages.signature)

/-- The digest of the signatures of both parts. -/
def signature (p : Profile) : String := Digest.ofText p.contents.render

end Profile

end HostProfile
