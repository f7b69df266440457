import HostProfile.PackageList
import HostProfile.Proofs.ItemTable.Reachable

/-!
# Reachable package sets

A package set is a table of packages, and all that is done to a set is done to its table.
-/

namespace HostProfile.PackageSet

/-- The sets whose tables come from empty ones by any operations. -/
def Reachable (s : PackageSet) : Prop := s.packages.Reachable

variable {s : PackageSet} {supply : Supply}

theorem reachable_empty (rules : MergeRules) (scope : KeyScope) (bucketByArch : Bool) :
    (empty rules scope bucketByArch).Reachable :=
  ItemTable.Reachable.empty rules _ scope none {} _

namespace Reachable

theorem merge (reachable : s.Reachable) (h : Handle Package) :
    (PackageSet.merge h s supply).state.Reachable :=
  ItemTable.Reachable.merge h supply reachable

theorem mergeSet (reachable : s.Reachable) (other : PackageSet) :
    (PackageSet.mergeSet other s supply).state.Reachable :=
  ItemTable.Reachable.mergeTable reachable other.packages supply

theorem mergeList (reachable : s.Reachable) (list : PackageList) :
    (PackageSet.mergeList list s supply).state.Reachable :=
  ItemTable.Reachable.mergeChain reachable list.chain supply

theorem reevaluate (reachable : s.Reachable) (set : ContextSet) :
    (PackageSet.reevaluate set s supply).state.Reachable :=
  ItemTable.Reachable.reevaluate set supply reachable

theorem prune (reachable : s.Reachable) : s.prune.1.Reachable :=
  ItemTable.Reachable.prune reachable

theorem wellFormed (reachable : s.Reachable) : s.packages.WellFormed :=
  ItemTable.Reachable.wellFormed reachable

end Reachable

end HostProfile.PackageSet
