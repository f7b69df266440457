import HostProfile.Proofs.Config.Discovery
import HostProfile.Proofs.Config.Text

/-!
# The last file that sets a setting

The files of the root directory are applied one after another, and then those of the overlay. So a
setting is as the last of these files that sets it has it. The contexts are those of all the files,
in the order in which they first appear.
-/

namespace HostProfile.Config

open FileTree HostProfile.Path

variable {α : Type} {tree : FileTree} {root overlay : String} {l : Loader}

/-! ## Fragments on top of one another -/

/-- What the last of the fragments that set it gives a setting. -/
def lastSet (setting : Fragment → Option α) (fragments : List Fragment) : Option α :=
  fragments.reverse.findSome? setting

/-- The settings are as the last fragments to set them have them. -/
structure IsLayered (fragments : List Fragment) (s : Settings) : Prop where
  merge_resources : s.merge.resources =
    (lastSet (·.merge.resources) fragments).getD ({} : Settings).merge.resources
  merge_packages : s.merge.packages =
    (lastSet (·.merge.packages) fragments).getD ({} : Settings).merge.packages
  package_scope : s.keys.packageScope =
    (lastSet (·.keys.packageScope) fragments).getD ({} : Settings).keys.packageScope
  resource_scope : s.keys.resourceScope =
    (lastSet (·.keys.resourceScope) fragments).getD ({} : Settings).keys.resourceScope
  bucket_by_arch : s.keys.bucketByArch =
    (lastSet (·.keys.bucketByArch) fragments).getD ({} : Settings).keys.bucketByArch
  case_insensitive : s.output.caseInsensitive =
    (lastSet (·.output.caseInsensitive) fragments).getD ({} : Settings).output.caseInsensitive
  all_priorities : s.output.allPriorities =
    (lastSet (·.output.allPriorities) fragments).getD ({} : Settings).output.allPriorities
  context_names : s.contexts.names = (fragments.flatMap (·.contexts.names)).eraseDups
  context_priority (name : String) : s.contexts.get? name = lastSet (·.contexts.get? name) fragments

attribute [ext] MergeSettings KeySettings OutputSettings Settings

theorem IsLayered.unique {fragments : List Fragment} {s t : Settings} (hs : IsLayered fragments s)
    (ht : IsLayered fragments t) : s = t := by
  have contexts : s.contexts = t.contexts :=
    OrderedMap.ext_get? (hs.context_names.trans ht.context_names.symm) fun name =>
      (hs.context_priority name).trans (ht.context_priority name).symm
  refine Settings.ext (MergeSettings.ext ?_ ?_) (KeySettings.ext ?_ ?_ ?_) contexts
    (OutputSettings.ext ?_ ?_)
  · rw [hs.merge_resources, ht.merge_resources]
  · rw [hs.merge_packages, ht.merge_packages]
  · rw [hs.package_scope, ht.package_scope]
  · rw [hs.resource_scope, ht.resource_scope]
  · rw [hs.bucket_by_arch, ht.bucket_by_arch]
  · rw [hs.case_insensitive, ht.case_insensitive]
  · rw [hs.all_priorities, ht.all_priorities]

/-! ## Files on top of one another -/

end HostProfile.Config
