import HostProfile.Profile
import HostProfile.Proofs.Config.Settings

/-!
# Profiles of settings

Settings in order give a profile, whose containers have the rules that the settings name and their
contexts. A profile cannot be made for want of a rule or because of a context, and settings are
refused for these reasons too; but a rule is found without the blanks around its name, and settings
with such a name are refused all the same.
-/

namespace HostProfile

open Config

/-! ## What stands against a profile -/

namespace Config.Settings

variable {s : Settings}

/-- The same settings, with packages hashed by their names. -/
def hashedByName (s : Settings) : Settings :=
  { s with keys := { s.keys with bucketByArch := false } }

/-- No profile can be made of the settings: they name a rule that there is not, or a context that
cannot be enabled with its priority. -/
inductive Unusable (s : Settings) : Error → Prop where
  | rule {name : String} (named : name ∈ s.merge.resources ++ s.merge.packages)
      (unknown : Text.trim name ∉ knownRules) : Unusable s (.unknownRule name)
  | contextName {name : String} {priority : Int32}
      (enabled : (name, priority) ∈ s.contexts.entries)
      (invalid : Context.isValidName name = false) : Unusable s (.context (.contextName name))
  | contextPriority {name : String} {priority : Int32}
      (enabled : (name, priority) ∈ s.contexts.entries)
      (valid : Context.isValidName name = true) (low : priority ≤ 0) :
      Unusable s (.context (.contextPriority name priority))

theorem Unusable.of_context {c : String × Int32} (member : c ∈ s.contexts.entries)
    (refused : ContextSet.admits c = false) : Unusable s (.context (ContextSet.refusal c)) := by
  unfold ContextSet.refusal
  unfold ContextSet.admits at refused
  split
  · next valid =>
    refine .contextPriority member valid (Int32.not_lt.mp ?_)
    simpa [valid] using refused
  · next invalid => exact .contextName member (Bool.eq_false_iff.mpr invalid)

theorem Unusable.not_usable {e : Error} (unusable : s.Unusable e)
    (known : ∀ name ∈ s.merge.resources ++ s.merge.packages, Text.trim name ∈ knownRules) :
    ¬ ∀ c ∈ s.contexts.entries, ContextSet.admits c = true := by
  intro admitted
  cases unusable with
  | rule named unknown => exact unknown (known _ named)
  | contextName enabled invalid =>
      have := admitted _ enabled
      simp [ContextSet.admits, invalid] at this
  | contextPriority enabled _ low =>
      have := admitted _ enabled
      simp [ContextSet.admits, Int32.not_lt.mpr low] at this

theorem exists_validate_hashedByName_iff :
    (∃ done, s.hashedByName.validate = .ok done) ↔
      (∀ name ∈ s.merge.resources ++ s.merge.packages, name ∈ knownRules) ∧
        ∀ c ∈ s.contexts.entries, ContextSet.admits c = true := by
  constructor
  · rintro ⟨⟨⟩, valid⟩
    obtain ⟨known, -, admitted⟩ := validate_eq_ok_iff.mp valid
    exact ⟨known, admitted⟩
  · rintro ⟨known, admitted⟩
    have any_scope : ¬ (false = true ∧ s.keys.packageScope = .name) := fun both =>
      Bool.false_ne_true both.1
    exact ⟨(), validate_eq_ok_iff.mpr ⟨known, any_scope, admitted⟩⟩

end Config.Settings

namespace Profile

variable {s : Settings} {p : Profile} {e : Error}

/-! ## The profile -/

/-- The empty profile with the scopes and the order of the settings. -/
def furnished (s : Settings) (resources packages : MergeRules) (set : ContextSet) : Profile where
  components :=
    { rules := resources
      scope := s.keys.resourceScope
      contexts := some set
      order := s.output.order }
  packages :=
    ⟨{ (PackageSet.empty packages s.keys.packageScope s.keys.bucketByArch).packages with
        contexts := some set
        order := s.output.order }⟩

/-- The rules of the resources are looked at first, then the contexts, then the rules of the
packages. -/
theorem ofSettings_eq (s : Settings) :
    ofSettings s = (do
      let resources ← MergeRules.ofNames s.merge.resources
      let set ← s.contextSet
      let packages ← MergeRules.ofNames s.merge.packages
      return furnished s resources packages set) := by
  unfold ofSettings ComponentSet.ofSettings PackageSet.ofSettings
  cases MergeRules.ofNames s.merge.resources with
  | error e => rfl
  | ok resources =>
  cases s.contextSet with
  | error e => rfl
  | ok set => cases MergeRules.ofNames s.merge.packages <;> rfl

theorem ofSettings_eq_ok_iff :
    ofSettings s = .ok p ↔ ∃ resources packages set,
      MergeRules.ofNames s.merge.resources = .ok resources ∧
      MergeRules.ofNames s.merge.packages = .ok packages ∧ s.contextSet = .ok set ∧
      p = furnished s resources packages set := by
  rw [ofSettings_eq]
  constructor
  · intro ok
    obtain ⟨resources, named, ok⟩ := bind_eq_ok ok
    obtain ⟨set, enabled, ok⟩ := bind_eq_ok ok
    obtain ⟨packages, named', made⟩ := bind_eq_ok ok
    exact ⟨resources, packages, set, named, named', enabled, (Except.ok.inj made).symm⟩
  · rintro ⟨resources, packages, set, named, named', enabled, rfl⟩
    rw [named, enabled, named']
    rfl

theorem unusable_of_ofSettings_eq_error (failed : ofSettings s = .error e) : s.Unusable e := by
  have unknown {names} (within : names ⊆ s.merge.resources ++ s.merge.packages)
      (failed : MergeRules.ofNames names = .error e) : s.Unusable e := by
    obtain ⟨name, member, unknown, rfl⟩ := MergeRules.exists_of_ofNames_eq_error failed
    exact .rule (within member) unknown
  rw [ofSettings_eq] at failed
  obtain failed | ⟨resources, failed⟩ := bind_eq_error failed
  · exact unknown (List.subset_append_left _ _) failed
  obtain failed | ⟨set, failed⟩ := bind_eq_error failed
  · obtain ⟨c, member, refused, rfl⟩ := Settings.exists_of_contextSet_eq_error failed
    exact .of_context member refused
  obtain failed | ⟨packages, failed⟩ := bind_eq_error failed
  · exact unknown (List.subset_append_right _ _) failed
  · cases failed

theorem exists_ofSettings_iff :
    (∃ p, ofSettings s = .ok p) ↔
      (∀ name ∈ s.merge.resources ++ s.merge.packages, Text.trim name ∈ knownRules) ∧
        ∀ c ∈ s.contexts.entries, ContextSet.admits c = true := by
  simp only [ofSettings_eq_ok_iff, MergeRules.ofNames_eq_ok_iff, Settings.contextSet_eq_ok_iff,
    List.forall_mem_append]
  constructor
  · rintro ⟨_, _, _, _, ⟨known, -⟩, ⟨known', -⟩, ⟨admitted, -⟩, -⟩
    exact ⟨⟨known, known'⟩, admitted⟩
  · rintro ⟨⟨known, known'⟩, admitted⟩
    exact ⟨_, _, _, _, ⟨known, rfl⟩, ⟨known', rfl⟩, ⟨admitted, rfl⟩, rfl⟩

theorem exists_ofSettings_eq_error_iff :
    (∃ e, ofSettings s = .error e) ↔ ∃ e, s.Unusable e := by
  constructor
  · rintro ⟨e, failed⟩
    exact ⟨e, unusable_of_ofSettings_eq_error failed⟩
  · rintro ⟨e, unusable⟩
    refine exists_error_iff.mpr fun made => ?_
    obtain ⟨known, admitted⟩ := exists_ofSettings_iff.mp made
    exact unusable.not_usable known admitted

/-- The containers have the rules that the settings name, and the contexts of the settings in their
order. -/
structure Configured (p : Profile) (s : Settings) : Prop where
  resource_rules : p.components.rules.IsUnion s.merge.resources
  package_rules : p.packages.packages.rules.IsUnion s.merge.packages
  resource_contexts : p.components.contexts = some ⟨s.contexts⟩
  package_contexts : p.packages.packages.contexts = some ⟨s.contexts⟩

theorem exists_configured (valid : s.validate = .ok ()) :
    ∃ p, ofSettings s = .ok p ∧ p.Configured s := by
  obtain ⟨known, -, admitted⟩ := Settings.validate_eq_ok_iff.mp valid
  have trimmed : ∀ name ∈ s.merge.resources ++ s.merge.packages, Text.trim name ∈ knownRules :=
    fun name named => MergeRule.trim_mem_knownRules (known name named)
  obtain ⟨p, made⟩ := exists_ofSettings_iff.mpr ⟨trimmed, admitted⟩
  obtain ⟨resources, packages, set, named, named', enabled, rfl⟩ := ofSettings_eq_ok_iff.mp made
  obtain ⟨-, rfl⟩ := MergeRules.ofNames_eq_ok_iff.mp named
  obtain ⟨-, rfl⟩ := MergeRules.ofNames_eq_ok_iff.mp named'
  obtain ⟨-, rfl⟩ := Settings.contextSet_eq_ok_iff.mp enabled
  rw [List.forall_mem_append] at known
  exact ⟨_, made, {
    resource_rules := MergeRules.isUnion_of_known known.1
    package_rules := MergeRules.isUnion_of_known known.2
    resource_contexts := rfl
    package_contexts := rfl }⟩

/-- Settings are refused by name when no profile can be made of them, or when they name a rule
between blanks. -/
theorem exists_validate_hashedByName_eq_error_iff :
    (∃ e, s.hashedByName.validate = .error e) ↔
      (∃ e, ofSettings s = .error e) ∨
        ∃ name ∈ s.merge.resources ++ s.merge.packages,
          name ∉ knownRules ∧ Text.trim name ∈ knownRules := by
  rw [exists_error_iff, exists_error_iff, Settings.exists_validate_hashedByName_iff,
    exists_ofSettings_iff]
  constructor
  · intro refused
    refine or_iff_not_imp_left.mpr fun usable => ?_
    obtain ⟨trimmed, admitted⟩ := not_not.mp usable
    by_contra none_between
    refine refused ⟨fun name named => ?_, admitted⟩
    by_contra unknown
    exact none_between ⟨name, named, unknown, trimmed name named⟩
  · rintro (unusable | ⟨name, named, unknown, -⟩) ⟨known, admitted⟩
    · exact unusable ⟨fun name named => MergeRule.trim_mem_knownRules (known name named), admitted⟩
    · exact unknown (known name named)

/-- Settings in order give a profile with their rules and contexts. No profile can be made exactly
when a rule is unknown or a context cannot be enabled, and the error says which. Settings are
refused for the same reasons and, even where a profile can be made, for a rule that is named between
blanks. -/
theorem construction_follows_validation (s : Settings) :
    (s.validate = .ok () → ∃ p, ofSettings s = .ok p ∧ p.Configured s) ∧
    (∀ e, ofSettings s = .error e → s.Unusable e) ∧
    ((∃ e, ofSettings s = .error e) ↔ ∃ e, s.Unusable e) ∧
    ((∃ e, s.hashedByName.validate = .error e) ↔
      (∃ e, ofSettings s = .error e) ∨
        ∃ name ∈ s.merge.resources ++ s.merge.packages,
          name ∉ knownRules ∧ Text.trim name ∈ knownRules) :=
  ⟨exists_configured, fun _ => unusable_of_ofSettings_eq_error, exists_ofSettings_eq_error_iff,
    exists_validate_hashedByName_eq_error_iff⟩

/-- Settings that a profile can be made of, and the same settings with a context that cannot be
enabled. -/
theorem construction_follows_validation_of_host :
    let s : Settings :=
      { merge := { resources := ["keep-all"], packages := ["replace", "use-priority"] }
        keys := { bucketByArch := true }
        contexts := .ofList [("web", 2), ("db", 5)] }
    let broken : Settings := { s with contexts := .ofList [("web", 2), ("db", 0)] }
    s.validate = .ok () ∧
      (∃ p, ofSettings s = .ok p ∧ p.components.rules.has .keepAll = true ∧
        p.components.rules.has .usePriority = false ∧
        p.packages.packages.rules.has .replace = true ∧
        p.packages.packages.contexts = some ⟨.ofList [("web", 2), ("db", 5)]⟩) ∧
      broken.Unusable (.context (.contextPriority "db" 0)) ∧
      (∃ e, ofSettings broken = .error e) ∧ ∃ e, broken.hashedByName.validate = .error e := by
  intro s broken
  have valid : s.validate = .ok () := by decide
  obtain ⟨p, made, configured⟩ := (construction_follows_validation s).1 valid
  have kept := (configured.resource_rules.has_iff .keepAll).mpr (by decide)
  have unweighed := Bool.eq_false_iff.mpr fun has =>
    absurd ((configured.resource_rules.has_iff .usePriority).mp has) (by decide)
  have replaced := (configured.package_rules.has_iff .replace).mpr (by decide)
  have unusable : broken.Unusable (.context (.contextPriority "db" 0)) :=
    .contextPriority (by decide) (by decide) (by decide)
  obtain ⟨-, -, failed_iff, refused_iff⟩ := construction_follows_validation broken
  have failed := failed_iff.mpr ⟨_, unusable⟩
  exact ⟨valid, ⟨p, made, kept, unweighed, replaced, configured.package_contexts⟩, unusable, failed,
    refused_iff.mpr (.inl failed)⟩

/-- A rule that is named behind a blank is put into force, and settings that name it so are
refused. -/
theorem blank_before_rule :
    let s : Settings := { merge := { resources := [" keep-all"] } }
    s.hashedByName.validate = .error (.unknownRule " keep-all") ∧
      ∃ p, ofSettings s = .ok p ∧ p.components.rules.has .keepAll = true :=
  ⟨by decide, _, rfl, by decide⟩

end Profile

end HostProfile
