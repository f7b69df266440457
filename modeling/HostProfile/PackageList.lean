import HostProfile.PackageSet

/-!
# Package lists

A package list keeps packages in one chain, as a layer of a profile lists them.
-/

namespace HostProfile

/-- Packages in the order in which they came in. -/
structure PackageList where
  chain : Chain Package
  contexts : Option ContextSet := none

namespace PackageList

/-- The rules of a list that names none. -/
def standardRules : MergeRules := { squashIdentical := true, keepAll := true }

/-- The empty list. -/
def empty (rules : MergeRules := standardRules) : PackageList :=
  ⟨{ key := "packages", rules, scope := .nameArch }, none⟩

/-- The list of the packages as they come, without a look at the rules. -/
def ofHandles (handles : List (Handle Package)) : PackageList :=
  let list := empty { keepAll := true }
  { list with chain := { list.chain with items := handles } }

def setRules (l : PackageList) (rules : MergeRules) : PackageList :=
  { l with chain := l.chain.setRules rules }

def setContexts (l : PackageList) (contexts : Option ContextSet) : PackageList :=
  { l with contexts }

/-- Merges a package. -/
def merge (h : Handle Package) : Action PackageList Change := fun l supply =>
  (Chain.merge l.contexts h l.chain supply).mapState fun chain => { l with chain }

/-- Merges the packages of another list. -/
def mergeList (other : PackageList) : Action PackageList Change := fun l supply =>
  (Chain.mergeChain l.contexts other.chain l.chain supply).mapState fun chain => { l with chain }

/-- The active packages in the order of the list. -/
def active (l : PackageList) : List (Handle Package) := l.chain.visible .active

/-- The packages of a name in the order of the list. -/
def named (l : PackageList) (name : String) : List (Handle Package) :=
  l.chain.items.filter (·.item.name == name)

/-- The active packages in the order of sorted output. -/
def sorted (l : PackageList) : List (Handle Package) := l.chain.sorted .active

/-- The list in the order of sorted output. -/
def sort (l : PackageList) : PackageList := { l with chain := l.chain.sort }

/-- The active packages in their canonical order. -/
def contents (l : PackageList) : Json := toJson l.sorted

/-- The digest of the active packages. -/
def signature (l : PackageList) : String := Digest.ofText l.contents.render

end PackageList

/-- Merges the packages of a list into a set, in the order of the list. -/
def PackageSet.mergeList (list : PackageList) : Action PackageSet Change :=
  onPackages (ItemTable.mergeChain list.chain)

end HostProfile
