import HostProfile.Config.Settings
import HostProfile.ItemTable
import HostProfile.Package

/-!
# Package sets

A package set keeps packages under their names, or under name and architecture.
-/

namespace HostProfile

/-- Packages in a table. -/
structure PackageSet where
  packages : ItemTable Package

namespace PackageSet

/-- The empty set with the given rules, whose packages collide under `scope`. -/
def empty (rules : MergeRules := .standard) (scope : KeyScope := .nameArch)
    (bucketByArch : Bool := false) : PackageSet :=
  ⟨{ rules, scope, bucket := if bucketByArch then .nameArch else .name }⟩

/-- The empty set of a configuration. -/
def ofSettings (settings : Config.Settings) : Except Config.Error PackageSet := do
  let rules ← MergeRules.ofNames settings.merge.packages
  let set := empty rules settings.keys.packageScope settings.keys.bucketByArch
  return ⟨{ set.packages with
    contexts := some (← settings.contextSet)
    order := settings.output.order }⟩

/-- Whether packages of different architectures are kept apart. -/
def bucketByArch (s : PackageSet) : Bool := s.packages.bucket == .nameArch

/-- Acts on the packages. -/
def onPackages {α : Type} (act : Action (ItemTable Package) α) : Action PackageSet α :=
  fun s supply => (act s.packages supply).mapState fun packages => ⟨packages⟩

/-- Merges a package. -/
def merge (h : Handle Package) : Action PackageSet Change := onPackages (ItemTable.merge h)

/-- Merges the packages of another set. -/
def mergeSet (other : PackageSet) : Action PackageSet Change :=
  onPackages (ItemTable.mergeTable other.packages)

/-- The winning package of a name and architecture. -/
def findPackage? (s : PackageSet) (name : String) (arch : Option String) :
    Option (Handle Package) := do
  let key :=
    match s.bucketByArch, arch with
    | true, some arch => name ++ "." ++ arch
    | _, _ => name
  (← s.packages.find? key).activeFor? name arch

/-- The set without inactive packages, and their number. -/
def prune (s : PackageSet) : PackageSet × Nat :=
  let (packages, pruned) := s.packages.prune
  (⟨packages⟩, pruned)

/-- Evaluates the packages in new contexts. -/
def reevaluate (contexts : ContextSet) : Action PackageSet Nat :=
  onPackages (ItemTable.reevaluate contexts)

end PackageSet

end HostProfile
