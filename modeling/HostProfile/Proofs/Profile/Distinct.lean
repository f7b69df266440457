import HostProfile.Proofs.ComponentSet.Chains
import HostProfile.Proofs.Profile.Construction

/-!
# One definition for each key

A profile never comes to hold two definitions with one key, unless its configuration keeps all of
them: no two packages of the set, and no two resources of one component. In each chain this is so
because the rules never let a definition join another one with its key, and definitions with one key
always lie in one chain, because valid settings do not hash packages by parts that their key leaves
out.
-/

namespace HostProfile

/-! ## Operations -/

/-- What one operation makes of a set of packages. A merge may fail, and so may an evaluation. -/
inductive PackageSet.Step (s : PackageSet) : PackageSet → Prop where
  | merge (h : Handle Package) (supply : Supply) : Step s (merge h s supply).state
  | mergeList (list : PackageList) (supply : Supply) : Step s (mergeList list s supply).state
  | mergeSet (other : PackageSet) (supply : Supply) : Step s (mergeSet other s supply).state
  | reevaluate (set : ContextSet) (supply : Supply) : Step s (reevaluate set s supply).state
  | prune : Step s s.prune.1
  | remove {key : String} {c : Chain Package} {rest : ItemTable Package} :
      s.packages.remove key = some (c, rest) → Step s ⟨rest⟩

/-- What one operation makes of a set of components. A merge may fail, and so may an evaluation. -/
inductive ComponentSet.Step (s : ComponentSet) : ComponentSet → Prop where
  | mergeResource (name : String) (h : Handle Resource) (supply : Supply) :
      Step s (mergeResource name h s supply).state
  | mergeComponent (c : Component) (supply : Supply) : Step s (mergeComponent c s supply).state
  | mergeSet (other : ComponentSet) (supply : Supply) : Step s (mergeSet other s supply).state
  | mergeEnvironment (vars : List Environment.Variable) (derivation : SharedDerivation)
      (supply : Supply) : Step s (mergeEnvironment vars derivation s supply).state
  | reevaluate (set : ContextSet) (supply : Supply) : Step s (reevaluate set s supply).state
  | prune : Step s s.prune.1
  | remove {name : String} {c : Component} {rest : ComponentSet} :
      s.remove name = some (c, rest) → Step s rest

/-- What one operation makes of a profile: one on its components or its packages, or one on
both. -/
inductive Profile.Step (p : Profile) : Profile → Prop where
  | components {s : ComponentSet} : p.components.Step s → Step p { p with components := s }
  | packages {s : PackageSet} : p.packages.Step s → Step p { p with packages := s }
  | merge (layer : Profile) (supply : Supply) : Step p (merge layer p supply).state
  | reevaluate (set : ContextSet) (supply : Supply) : Step p (reevaluate set p supply).state
  | prune : Step p p.prune.1

/-- The profiles that come from the empty one of a configuration by any operations. -/
inductive Profile.Reached (settings : Config.Settings) : Profile → Prop where
  | start {p : Profile} : ofSettings settings = .ok p → Reached settings p
  | step {p p' : Profile} : Reached settings p → p.Step p' → Reached settings p'

/-! ## What the operations keep -/

theorem ItemTable.Fits.remove {T : Type} [Item T] {t rest : ItemTable T} {bucket scope : KeyScope}
    {rules : MergeRules} {key : String} {c : Chain T} (fits : t.Fits bucket scope rules)
    (removed : t.remove key = some (c, rest)) : rest.Fits bucket scope rules := by
  have wf := fits.wellFormed.remove removed
  obtain ⟨-, rfl⟩ := remove_eq_some removed
  exact ⟨wf, fits.bucket, fits.scope, fits.rules⟩

namespace PackageSet.Step

variable {s s' : PackageSet} {allowed : MergeRules → Prop}

theorem chained (step : s.Step s') (before : s.packages.Chained allowed) :
    s'.packages.Chained allowed := by
  cases step with
  | merge h supply => exact before.merge h supply
  | mergeList list supply => exact before.mergeChain list.chain supply
  | mergeSet other supply => exact before.mergeTable other.packages supply
  | reevaluate set supply => exact before.reevaluate set supply
  | prune => exact before.prune
  | remove removed => exact before.remove removed

theorem fits (step : s.Step s') {bucket scope : KeyScope} {rules : MergeRules}
    (before : s.packages.Fits bucket scope rules) : s'.packages.Fits bucket scope rules := by
  cases step with
  | merge h supply => exact before.merge h supply
  | mergeList list supply => exact before.mergeChain list.chain supply
  | mergeSet other supply => exact before.mergeTable other.packages supply
  | reevaluate set supply => exact before.reevaluate set supply
  | prune => exact before.prune
  | remove removed => exact before.remove removed

end PackageSet.Step

namespace ComponentSet

theorem scope_mergeResource (name : String) (h : Handle Resource) (s : ComponentSet)
    (supply : Supply) : (mergeResource name h s supply).state.scope = s.scope := by
  unfold mergeResource
  cases Component.checkName name <;> rfl

theorem scope_mergeComponent (c : Component) (s : ComponentSet) (supply : Supply) :
    (mergeComponent c s supply).state.scope = s.scope := rfl

namespace Step

variable {s s' : ComponentSet}

theorem chained {allowed : MergeRules → Prop} (step : s.Step s') (before : s.Chained allowed) :
    s'.Chained allowed := by
  cases step with
  | mergeResource name h supply => exact before.mergeResource name h supply
  | mergeComponent c supply => exact before.mergeComponent c supply
  | mergeSet other supply => exact before.mergeSet other supply
  | mergeEnvironment vars derivation supply => exact before.mergeEnvironment vars derivation supply
  | reevaluate set supply => exact before.reevaluate set supply
  | prune => exact before.prune
  | remove removed => exact before.remove removed

theorem scope_eq (step : s.Step s') : s'.scope = s.scope := by
  cases step with
  | mergeResource name h supply => exact scope_mergeResource name h s supply
  | mergeComponent c supply => rfl
  | mergeSet other supply =>
      exact Action.each_keeps (P := fun after => after.scope = s.scope)
        (fun c _ after supply same => (scope_mergeComponent c after supply).trans same) s supply rfl
  | mergeEnvironment vars derivation supply =>
      exact mergeEnvironment_keeps (P := fun after => after.scope = s.scope)
        (fun name h after supply same => (scope_mergeResource name h after supply).trans same)
        vars derivation s supply rfl
  | reevaluate set supply => exact (state_reevaluate set s supply).2.2
  | prune => rfl
  | remove removed =>
      obtain ⟨-, rfl⟩ := remove_eq_some removed
      rfl

end Step

end ComponentSet

/-- Rules under which no definition joins another one with its key. -/
abbrev MergeRules.OnePerKey (rules : MergeRules) : Prop := rules.keepAll = false

namespace Profile

variable {settings : Config.Settings} {p p' : Profile} {supply : Supply}

/-- What a profile keeps of its configuration. -/
structure Kept (settings : Config.Settings) (p : Profile) : Prop where
  packages : p.packages.packages.Chained MergeRules.OnePerKey
  fits : ∃ rules, p.packages.packages.Fits settings.bucketScope settings.keys.packageScope rules
  components : p.components.Chained MergeRules.OnePerKey
  scope : p.components.scope = settings.keys.resourceScope

namespace Kept

theorem onPackages (kept : p.Kept settings) {s : PackageSet} (step : p.packages.Step s) :
    Kept settings { p with packages := s } where
  packages := step.chained kept.packages
  fits := by
    obtain ⟨rules, fits⟩ := kept.fits
    exact ⟨rules, step.fits fits⟩
  components := kept.components
  scope := kept.scope

theorem onComponents (kept : p.Kept settings) {s : ComponentSet} (step : p.components.Step s) :
    Kept settings { p with components := s } where
  packages := kept.packages
  fits := kept.fits
  components := step.chained kept.components
  scope := step.scope_eq.trans kept.scope

/-- Every operation keeps it, be it with a failure between the components and the packages. -/
theorem step (kept : p.Kept settings) (step : p.Step p') : p'.Kept settings := by
  cases step with
  | components step => exact kept.onComponents step
  | packages step => exact kept.onPackages step
  | merge layer supply =>
      have first := kept.onComponents (.mergeSet layer.components supply)
      apply Outcome.state_andThen first
      intro change
      exact first.onPackages (.mergeSet layer.packages _)
  | reevaluate set supply =>
      have first := kept.onComponents (.reevaluate set supply)
      apply Outcome.state_andThen first
      intro changed
      exact first.onPackages (.reevaluate set _)
  | prune => exact (kept.onComponents .prune).onPackages .prune

end Kept

/-- The empty profile has the rules and scopes of its configuration. -/
theorem kept_of_ofSettings (valid : settings.validate = .ok ())
    (resources : "keep-all" ∉ settings.merge.resources)
    (packages : "keep-all" ∉ settings.merge.packages) (ok : ofSettings settings = .ok p) :
    p.Kept settings := by
  have known := Config.Settings.known_of_validate valid
  obtain ⟨rules, rules', set, rules_ok, rules_ok', -, rfl⟩ := ofSettings_eq_ok_iff.mp ok
  have one : rules.OnePerKey := MergeRules.keepAll_ofNames
    (fun name member => known name (List.mem_append_left _ member)) resources rules_ok
  have one' : rules'.OnePerKey := MergeRules.keepAll_ofNames
    (fun name member => known name (List.mem_append_right _ member)) packages rules_ok'
  exact {
    packages := .empty one' _ _ _ _ _
    fits := ⟨rules', .empty rules' _ _ _ _ _, rfl, rfl, rfl⟩
    components := .empty one _ _ _ _
    scope := rfl }

theorem Reached.kept (valid : settings.validate = .ok ())
    (resources : "keep-all" ∉ settings.merge.resources)
    (packages : "keep-all" ∉ settings.merge.packages) (reached : p.Reached settings) :
    p.Kept settings := by
  induction reached with
  | start ok => exact kept_of_ofSettings valid resources packages ok
  | step _ step kept => exact kept.step step

end Profile

/-- A table of which every chain was made by rules that keep one definition has one for each key,
when its buckets are not finer than its scope. -/
theorem ItemTable.Chained.distinct_handles {T : Type} [Item T] [LawfulItem T] {t : ItemTable T}
    (chained : t.Chained MergeRules.OnePerKey) (coarser : t.bucket.parts ≤ t.scope.parts) :
    t.handles.Pairwise fun x y => t.scope.collides x.item y.item = false := by
  refine chained.wellFormed.pairwise_handles (R := fun a b => t.scope.collides a b = false) coarser
    (fun _ _ apart => apart) ?_
  intro key
  rw [← chained.wellFormed.scope_chainAt key]
  exact (chained.reachable key).distinct

/-- Under valid settings that do not keep all definitions, a profile has at most one package for
each key in the whole set, and at most one resource for each key in a component. -/
theorem Profile.one_definition_per_key (settings : Config.Settings)
    (valid : settings.validate = .ok ()) (resources : "keep-all" ∉ settings.merge.resources)
    (packages : "keep-all" ∉ settings.merge.packages) (p : Profile)
    (reached : p.Reached settings) :
    (p.packages.packages.handles.Pairwise fun x y =>
      settings.keys.packageScope.collides x.item y.item = false) ∧
    ∀ c ∈ p.components.table.slots, c.resources.handles.Pairwise fun x y =>
      settings.keys.resourceScope.collides x.item y.item = false := by
  have kept := reached.kept valid resources packages
  constructor
  · obtain ⟨rules, fits⟩ := kept.fits
    rw [← fits.scope]
    apply kept.packages.distinct_handles
    rw [fits.bucket, fits.scope]
    exact Config.Settings.coarser_of_validate valid
  · intro c member
    have found : p.components.find? c.name = some c :=
      kept.components.wellFormed.sound.find?_eq_some_iff.mpr ⟨member, rfl⟩
    have fits := (kept.components.wellFormed.stored found).fits
    rw [← kept.scope, ← fits.scope]
    apply (kept.components.resources found).distinct_handles
    rw [fits.bucket]
    exact KeyScope.one_le_parts _

theorem Profile.one_definition_per_key_of_merges :
    let settings : Config.Settings := {}
    let start : Profile :=
      ⟨{ contexts := some ∅ }, ⟨{ (PackageSet.empty).packages with contexts := some ∅ }⟩⟩
    let vim : Handle Package := ⟨0, 1, { name := "vim", version := "1.0" }⟩
    let newer : Handle Package := ⟨2, 3, { name := "vim", version := "2.0", mark := some '+' }⟩
    let port : Handle Resource := ⟨4, 5, { name := "port", value := "22" }⟩
    let first : Profile :=
      { start with packages := (PackageSet.merge vim start.packages ⟨6⟩).state }
    let second : Profile :=
      { first with packages := (PackageSet.merge newer first.packages ⟨6⟩).state }
    let third : Profile :=
      { second with
        components := (ComponentSet.mergeResource "ssh" port second.components ⟨6⟩).state }
    settings.validate = .ok () ∧ "keep-all" ∉ settings.merge.resources ∧
      "keep-all" ∉ settings.merge.packages ∧ third.Reached settings ∧
      third.packages.packages.handles = [newer] ∧
      (third.packages.packages.handles.Pairwise fun x y =>
        settings.keys.packageScope.collides x.item y.item = false) ∧
      third.components.size = 1 ∧
      ∀ c ∈ third.components.table.slots, c.resources.handles.Pairwise fun x y =>
        settings.keys.resourceScope.collides x.item y.item = false := by
  intro settings start vim newer port first second third
  have valid : settings.validate = .ok () := by decide
  have resources : "keep-all" ∉ settings.merge.resources := by decide
  have packages : "keep-all" ∉ settings.merge.packages := by decide
  have made : ofSettings settings = .ok start := by rfl
  have reached : third.Reached settings :=
    .step (.step (.step (.start made) (.packages (.merge vim ⟨6⟩)))
      (.packages (.merge newer ⟨6⟩))) (.components (.mergeResource "ssh" port ⟨6⟩))
  have distinct := one_definition_per_key settings valid resources packages third reached
  exact ⟨valid, resources, packages, reached, by decide +kernel, distinct.1, by decide +kernel,
    distinct.2⟩

end HostProfile
