import HostProfile.Config.Settings
import HostProfile.Toml.Document
import HostProfile.Toml.Record
import HostProfile.Toml.Spelling

/-!
# The text of settings

Settings and fragments are written in TOML, with a table for each group of settings. In the text
of settings, what is missing has its default and what is unknown is passed over. In the text of a
fragment, what is missing is left as it is and what is unknown is refused.
-/

namespace HostProfile.Config

/-- The names of the groups of settings. -/
def groupNames : List String := ["merge", "keys", "contexts", "output"]

/-- The names of the merge settings. -/
def mergeNames : List String := ["resources", "packages"]

/-- The names of the key settings. -/
def keyNames : List String := ["package_scope", "resource_scope", "bucket_by_arch"]

/-- The names of the output settings. -/
def outputNames : List String := ["case_insensitive", "all_priorities"]

instance : OfToml MergeSettings where
  ofToml? t := do
    guard t.isRecord
    let d : MergeSettings := {}
    return {
      resources := ← t.withDefault 0 "resources" d.resources
      packages := ← t.withDefault 1 "packages" d.packages }

instance : OfToml KeySettings where
  ofToml? t := do
    guard t.isRecord
    let d : KeySettings := {}
    return {
      packageScope := ← t.withDefault 0 "package_scope" d.packageScope
      resourceScope := ← t.withDefault 1 "resource_scope" d.resourceScope
      bucketByArch := ← t.withDefault 2 "bucket_by_arch" d.bucketByArch }

instance : OfToml OutputSettings where
  ofToml? t := do
    guard t.isRecord
    let d : OutputSettings := {}
    return {
      caseInsensitive := ← t.withDefault 0 "case_insensitive" d.caseInsensitive
      allPriorities := ← t.withDefault 1 "all_priorities" d.allPriorities }

instance : OfToml Settings where
  ofToml? t := do
    guard t.isRecord
    return {
      merge := ← t.withDefault 0 "merge" {}
      keys := ← t.withDefault 1 "keys" {}
      contexts := ← t.withDefault 2 "contexts" {}
      output := ← t.withDefault 3 "output" {} }

instance : OfToml MergeFragment where
  ofToml? t := do
    guard (t.fits mergeNames)
    return {
      resources := ← t.optional 0 "resources"
      packages := ← t.optional 1 "packages" }

instance : OfToml KeyFragment where
  ofToml? t := do
    guard (t.fits keyNames)
    return {
      packageScope := ← t.optional 0 "package_scope"
      resourceScope := ← t.optional 1 "resource_scope"
      bucketByArch := ← t.optional 2 "bucket_by_arch" }

instance : OfToml OutputFragment where
  ofToml? t := do
    guard (t.fits outputNames)
    return {
      caseInsensitive := ← t.optional 0 "case_insensitive"
      allPriorities := ← t.optional 1 "all_priorities" }

instance : OfToml Fragment where
  ofToml? t := do
    guard (t.fits groupNames)
    return {
      merge := ← t.withDefault 0 "merge" {}
      keys := ← t.withDefault 1 "keys" {}
      contexts := ← t.withDefault 2 "contexts" {}
      output := ← t.withDefault 3 "output" {} }

/-- The value that the text of the file describes. -/
def read {α : Type} [OfToml α] (path text : String) : Except Error α :=
  match Toml.parse? text >>= ofToml? with
  | some a => .ok a
  | none => .error (.malformed path)

namespace Settings

/-- The settings of the text. -/
def parse (path text : String) : Except Error Settings := read path text

/-- The text of the settings. -/
def render (s : Settings) : String :=
  "\n".intercalate [
    Toml.spellTable "merge" [
      ("resources", Toml.spellTexts s.merge.resources),
      ("packages", Toml.spellTexts s.merge.packages)],
    Toml.spellTable "keys" [
      ("package_scope", Toml.spellText s.keys.packageScope.label),
      ("resource_scope", Toml.spellText s.keys.resourceScope.label),
      ("bucket_by_arch", toString s.keys.bucketByArch)],
    Toml.spellTable "contexts"
      (s.contexts.entries.map fun (name, priority) => (name, toString priority.toInt)),
    Toml.spellTable "output" [
      ("case_insensitive", toString s.output.caseInsensitive),
      ("all_priorities", toString s.output.allPriorities)]]

/-- Whether the text of the settings describes the same settings. -/
def rendersFaithfully (s : Settings) : Bool :=
  match parse "" s.render with
  | .ok read => read == s
  | .error _ => false

end Settings

/-- The fragment of the text. -/
def Fragment.parse (path text : String) : Except Error Fragment := read path text

end HostProfile.Config
