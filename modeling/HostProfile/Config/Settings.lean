import HostProfile.Context.Set
import HostProfile.MergeRules
import HostProfile.Item
import HostProfile.Order

/-!
# Settings

The settings of a profile: the merge rules of its containers, the keys of its items, the enabled
contexts, and the order of its output. A fragment sets some of them and leaves the others as they
are.
-/

namespace HostProfile.Config

/-- The names of the merge rules in force. -/
structure MergeSettings where
  resources : List String := ["squash-identical", "use-priority"]
  packages : List String := ["squash-identical", "use-priority"]
  deriving DecidableEq

/-- The parts of items that make up their keys. -/
structure KeySettings where
  packageScope : KeyScope := .nameArch
  resourceScope : KeyScope := .nameArchContext
  /-- Whether packages are hashed by name and architecture. -/
  bucketByArch : Bool := false
  deriving DecidableEq

/-- How output is ordered. -/
structure OutputSettings where
  caseInsensitive : Bool := true
  allPriorities : Bool := false
  deriving DecidableEq

/-- The order of output under the settings. -/
def OutputSettings.order (o : OutputSettings) : OutputOrder :=
  ⟨.ofInsensitive o.caseInsensitive, .ofAllPriorities o.allPriorities⟩

/-- The settings of a profile. -/
structure Settings where
  merge : MergeSettings := {}
  keys : KeySettings := {}
  contexts : OrderedMap Int32 := .empty
  output : OutputSettings := {}
  deriving DecidableEq

instance : Inhabited Settings := ⟨{}⟩

/-- The names of the merge rules that a configuration may use. -/
def knownRules : List String := MergeRule.all.map MergeRule.label

namespace Settings

/-- The enabled contexts. -/
def contextSet (s : Settings) : Except Error ContextSet :=
  match ContextSet.empty.enableAll s.contexts.entries with
  | .ok set => .ok set
  | .error e => .error (.context e)

/-- The settings with one more context, whose name and priority nothing checks. -/
def enableContext (s : Settings) (name : String) (priority : Int32) : Settings :=
  { s with contexts := s.contexts.insert name priority }

/-- The settings are in order: the rules are known, packages are not hashed by an architecture
that their key leaves out, and the contexts can be enabled. -/
def validate (s : Settings) : Except Error Unit := do
  match (s.merge.resources ++ s.merge.packages).find? (!knownRules.contains ·) with
  | some name => throw (.unknownRule name)
  | none => pure ()
  if s.keys.bucketByArch && s.keys.packageScope == .name then throw .bucketWithoutArch
  let _ ← s.contextSet

end Settings

/-- The merge rules that a fragment sets. -/
structure MergeFragment where
  resources : Option (List String) := none
  packages : Option (List String) := none
  deriving DecidableEq

/-- The keys that a fragment sets. -/
structure KeyFragment where
  packageScope : Option KeyScope := none
  resourceScope : Option KeyScope := none
  bucketByArch : Option Bool := none
  deriving DecidableEq

/-- The order of output that a fragment sets. -/
structure OutputFragment where
  caseInsensitive : Option Bool := none
  allPriorities : Option Bool := none
  deriving DecidableEq

/-- Some of the settings of a profile. -/
structure Fragment where
  merge : MergeFragment := {}
  keys : KeyFragment := {}
  contexts : OrderedMap Int32 := .empty
  output : OutputFragment := {}
  deriving DecidableEq

instance : Inhabited Fragment := ⟨{}⟩

/-- The settings with those of the fragment in their places. Lists of rules are replaced as a
whole, contexts one by one. -/
def Settings.apply (s : Settings) (f : Fragment) : Settings where
  merge :=
    { resources := f.merge.resources.getD s.merge.resources
      packages := f.merge.packages.getD s.merge.packages }
  keys :=
    { packageScope := f.keys.packageScope.getD s.keys.packageScope
      resourceScope := f.keys.resourceScope.getD s.keys.resourceScope
      bucketByArch := f.keys.bucketByArch.getD s.keys.bucketByArch }
  contexts := f.contexts.entries.foldl (fun m e => m.insert e.1 e.2) s.contexts
  output :=
    { caseInsensitive := f.output.caseInsensitive.getD s.output.caseInsensitive
      allPriorities := f.output.allPriorities.getD s.output.allPriorities }

end HostProfile.Config
