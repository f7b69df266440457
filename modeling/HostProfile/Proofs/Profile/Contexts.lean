import HostProfile.Proofs.ComponentSet.Weighed
import HostProfile.Proofs.Context.Name
import HostProfile.Proofs.Profile.Construction
import HostProfile.Proofs.Profile.Evaluation

/-!
# Priorities that follow the contexts

A profile that comes from a configuration evaluates everything in one set of contexts. Whatever is
merged into it, by hand or as a layer, is stored at the priority that it has there or not at all, so
that the priorities always show the contexts. An evaluation in other contexts never meets a
malformed definition, then, and changes nothing but the priorities that the new contexts change.
-/

namespace HostProfile

/-! ## Operations that leave the contexts -/

/-- What one operation that leaves the contexts makes of a set of packages. A merge may fail. -/
inductive PackageSet.Edit (s : PackageSet) : PackageSet → Prop where
  | merge (h : Handle Package) (supply : Supply) : Edit s (merge h s supply).state
  | mergeList (list : PackageList) (supply : Supply) : Edit s (mergeList list s supply).state
  | mergeSet (other : PackageSet) (supply : Supply) : Edit s (mergeSet other s supply).state
  | prune : Edit s s.prune.1
  | remove {key : String} {c : Chain Package} {rest : ItemTable Package} :
      s.packages.remove key = some (c, rest) → Edit s ⟨rest⟩

/-- What one operation that leaves the contexts makes of a set of components. A merge may fail. -/
inductive ComponentSet.Edit (s : ComponentSet) : ComponentSet → Prop where
  | mergeResource (name : String) (h : Handle Resource) (supply : Supply) :
      Edit s (mergeResource name h s supply).state
  | mergeComponent (c : Component) (supply : Supply) : Edit s (mergeComponent c s supply).state
  | mergeSet (other : ComponentSet) (supply : Supply) : Edit s (mergeSet other s supply).state
  | mergeEnvironment (vars : List Environment.Variable) (derivation : SharedDerivation)
      (supply : Supply) : Edit s (mergeEnvironment vars derivation s supply).state
  | prune : Edit s s.prune.1
  | remove {name : String} {c : Component} {rest : ComponentSet} :
      s.remove name = some (c, rest) → Edit s rest

/-- The profiles that come from the empty one of a configuration when the contexts of its parts are
never set apart from each other: only the profile as a whole is evaluated in other contexts. -/
inductive Profile.Maintained (settings : Config.Settings) : Profile → Prop where
  | start {p : Profile} : ofSettings settings = .ok p → Maintained settings p
  | components {p : Profile} {s : ComponentSet} : Maintained settings p → p.components.Edit s →
      Maintained settings { p with components := s }
  | packages {p : Profile} {s : PackageSet} : Maintained settings p → p.packages.Edit s →
      Maintained settings { p with packages := s }
  | merge {p : Profile} (layer : Profile) (supply : Supply) : Maintained settings p →
      Maintained settings (merge layer p supply).state
  | reevaluate {p : Profile} (set : ContextSet) (supply : Supply) : Maintained settings p →
      Maintained settings (reevaluate set p supply).state
  | prune {p : Profile} : Maintained settings p → Maintained settings p.prune.1

/-! ## What they keep -/

theorem PackageSet.Edit.keeps {s s' : PackageSet} {P : ItemTable Package → Prop}
    (edit : s.Edit s') (invariant : ItemTable.Invariant P)
    (remove : ∀ {key c rest}, P s.packages → s.packages.remove key = some (c, rest) → P rest)
    (holds : P s.packages) : P s'.packages := by
  cases edit with
  | merge h supply => exact invariant.merge holds h supply
  | mergeList list supply => exact invariant.mergeChain holds list.chain supply
  | mergeSet other supply => exact invariant.mergeTable holds other.packages supply
  | prune => exact invariant.prune holds
  | remove removed => exact remove holds removed

theorem ComponentSet.Edit.every {s s' : ComponentSet} {P : ItemTable Resource → Prop}
    {rules : MergeRules} {scope : KeyScope} {contexts : Option ContextSet} (edit : s.Edit s')
    (invariant : ItemTable.Invariant P)
    (created : P { rules, bucket := .name, scope, contexts := contexts })
    (every : s.Every P rules scope contexts) : s'.Every P rules scope contexts := by
  cases edit with
  | mergeResource name h supply => exact every.mergeResource created invariant name h supply
  | mergeComponent c supply => exact every.mergeComponent created invariant c supply
  | mergeSet other supply => exact every.mergeSet created invariant other supply
  | mergeEnvironment vars derivation supply =>
      exact every.mergeEnvironment created invariant vars derivation supply
  | prune => exact every.prune invariant
  | remove removed => exact every.remove removed

namespace Profile

/-- The tables of both parts are well formed. -/
structure WellFormed (p : Profile) : Prop where
  components : p.components.WellFormed
  packages : p.packages.packages.WellFormed

/-- Both parts have the contexts, and every definition has their priority. -/
structure WeighedIn (set : ContextSet) (p : Profile) : Prop where
  components : p.components.WeighedIn set
  packages : p.packages.packages.WeighedIn set

variable {set : ContextSet} {p : Profile} {supply : Supply}

namespace WeighedIn

theorem onComponents (weighed : p.WeighedIn set) {s : ComponentSet}
    (edit : p.components.Edit s) : WeighedIn set { p with components := s } where
  components := .of_every (edit.every (ItemTable.WeighedIn.invariant set)
    (ComponentSet.WeighedIn.created _ _ set) weighed.components)
  packages := weighed.packages

theorem onPackages (weighed : p.WeighedIn set) {s : PackageSet} (edit : p.packages.Edit s) :
    WeighedIn set { p with packages := s } where
  components := weighed.components
  packages := edit.keeps (ItemTable.WeighedIn.invariant set)
    (fun before removed => before.remove removed) weighed.packages

theorem merge (weighed : p.WeighedIn set) (layer : Profile) (supply : Supply) :
    (Profile.merge layer p supply).state.WeighedIn set := by
  have first := weighed.onComponents (.mergeSet layer.components supply)
  apply Outcome.state_andThen first
  intro change
  exact first.onPackages (.mergeSet layer.packages _)

theorem prune (weighed : p.WeighedIn set) : p.prune.1.WeighedIn set :=
  (weighed.onComponents .prune).onPackages .prune

theorem wellFormed_reevaluate (weighed : p.WeighedIn set) (next : ContextSet)
    (supply : Supply) : (Profile.reevaluate next p supply).state.WellFormed := by
  have components := weighed.components.wellFormed.reevaluate next supply
  have packages := weighed.packages.wellFormed
  have first : Profile.WellFormed
      { p with components := (ComponentSet.reevaluate next p.components supply).state } :=
    ⟨components, packages⟩
  apply Outcome.state_andThen first
  intro changed
  exact ⟨components, packages.reevaluate next _⟩

/-- An evaluation does not fail, whatever the new contexts, and the profile is in them then. -/
theorem reevaluate (weighed : p.WeighedIn set) (next : ContextSet) (supply : Supply) :
    let after := Profile.reevaluate next p supply
    ∃ n, after.result = .ok n ∧ p.Adopted next after.state ∧ n = p.changes after.state ∧
      after.state.WeighedIn next := by
  intro after
  obtain ⟨n, ok⟩ := (reevaluate_ok_iff next p supply).mpr
    ⟨fun h member => (weighed.components.handles h member).not_malformed,
      fun h member => (weighed.packages.handles h member).not_malformed⟩
  obtain ⟨adopted, total⟩ := (evaluates_reevaluate next p supply).of_ok ok
  have formed := weighed.wellFormed_reevaluate next supply
  exact ⟨n, ok, adopted, total, adopted.components.weighedIn formed.components,
    adopted.packages.weighedIn formed.packages⟩

/-- An evaluation in the contexts that the profile has finds nothing to change. -/
theorem reevaluate_again (weighed : p.WeighedIn set) (supply : Supply) :
    (Profile.reevaluate set p supply).result = .ok 0 := by
  obtain ⟨n, ok, adopted, total, -⟩ := weighed.reevaluate set supply
  have components := Handle.eq_of_weighedIn weighed.components.handles adopted.components.handles
  have packages := Handle.eq_of_weighedIn weighed.packages.handles adopted.packages.handles
  have none_changed : n = 0 := by
    rw [total, changes, components, packages, changes_self, changes_self]
  rw [ok, none_changed]

end WeighedIn

/-- The empty profile of a configuration is in the contexts that this enables. -/
theorem weighedIn_of_ofSettings {settings : Config.Settings} (ok : ofSettings settings = .ok p) :
    ∃ set, p.WeighedIn set := by
  obtain ⟨rules, rules', set, -, -, -, rfl⟩ := ofSettings_eq_ok_iff.mp ok
  exact ⟨set, .empty _ _ _ _ _ _, .empty _ _ _ _ _ _⟩

theorem Maintained.weighedIn {settings : Config.Settings} (maintained : p.Maintained settings) :
    ∃ set, p.WeighedIn set := by
  induction maintained with
  | start ok => exact weighedIn_of_ofSettings ok
  | components _ edit weighed =>
      obtain ⟨set, weighed⟩ := weighed
      exact ⟨set, weighed.onComponents edit⟩
  | packages _ edit weighed =>
      obtain ⟨set, weighed⟩ := weighed
      exact ⟨set, weighed.onPackages edit⟩
  | merge layer supply _ weighed =>
      obtain ⟨set, weighed⟩ := weighed
      exact ⟨set, weighed.merge layer supply⟩
  | reevaluate next supply _ weighed =>
      obtain ⟨set, weighed⟩ := weighed
      obtain ⟨-, -, -, -, after⟩ := weighed.reevaluate next supply
      exact ⟨next, after⟩
  | prune _ weighed =>
      obtain ⟨set, weighed⟩ := weighed
      exact ⟨set, weighed.prune⟩

/-- A profile that is maintained as a whole has one set of contexts throughout, and every definition
has the priority that these give it. An evaluation in any contexts succeeds and answers with the
number of priorities that it changed; it changes nothing else of the definitions and keeps their
places, and the same evaluation again changes nothing. -/
theorem priorities_follow_contexts (settings : Config.Settings) (p : Profile)
    (maintained : p.Maintained settings) :
    (∃ set, p.components.contexts = some set ∧ p.packages.packages.contexts = some set ∧
      (∀ c ∈ p.components.table.slots, c.resources.contexts = some set) ∧
      (∀ h ∈ p.components.handles, set.evaluateItem h.item = .ok (Item.priority h.item)) ∧
      ∀ h ∈ p.packages.packages.handles, set.evaluateItem h.item = .ok (Item.priority h.item)) ∧
    ∀ (next : ContextSet) (supply : Supply),
      let after := reevaluate next p supply
      after.result = .ok (p.changes after.state) ∧ p.Adopted next after.state ∧
        ∀ later, (reevaluate next after.state later).result = .ok 0 := by
  obtain ⟨set, weighed⟩ := maintained.weighedIn
  refine ⟨⟨set, weighed.components.contexts, weighed.packages.contexts,
    fun c member => (weighed.components.of_mem_slots member).contexts,
    weighed.components.handles, weighed.packages.handles⟩, ?_⟩
  intro next supply after
  obtain ⟨n, ok, adopted, total, weighed'⟩ := weighed.reevaluate next supply
  rw [total] at ok
  exact ⟨ok, adopted, weighed'.reevaluate_again⟩

/-- A package that is merged where its context is enabled is stored with the priority of this, and
an evaluation that disables the context changes this one priority. -/
theorem priorities_follow_contexts_of_laptop :
    let settings : Config.Settings := { contexts := ⟨[("laptop", 1)], by decide⟩ }
    let laptop : ContextSet := ⟨settings.contexts⟩
    let start : Profile := ⟨{ contexts := some laptop },
      ⟨{ (PackageSet.empty).packages with contexts := some laptop }⟩⟩
    let vim : Handle Package := ⟨0, 1, { name := "vim", context := "laptop" }⟩
    let p : Profile := { start with packages := (PackageSet.merge vim start.packages ⟨2⟩).state }
    let after := reevaluate {} p ⟨3⟩
    p.Maintained settings ∧ p.packages.packages.handles = [vim.withPriority 1 2] ∧
      p.Adopted {} after.state ∧ after.result = .ok 1 ∧
      (reevaluate {} after.state ⟨4⟩).result = .ok 0 := by
  intro settings laptop start vim p after
  have made : ofSettings settings = .ok start := by rfl
  have maintained : p.Maintained settings := .packages (.start made) (.merge vim ⟨2⟩)
  have stored : p.packages.packages.handles = [vim.withPriority 1 2] := by
    have enabled : priorityIn (some laptop) vim.item = .ok 1 :=
      laptop.evaluate_of_isValidName (by decide)
    have merges : Chain.merge start.packages.packages.contexts vim = fun c supply => _ :=
      funext fun c => funext fun supply => by rw [Chain.merge_eq, enabled]
    unfold p PackageSet.merge PackageSet.onPackages ItemTable.merge
    rw [merges]
    decide +kernel
  obtain ⟨ok, adopted, again⟩ := (priorities_follow_contexts settings p maintained).2 {} ⟨3⟩
  have one_changed : p.changes after.state = 1 := by
    have none_held : p.components.handles = [] := by decide +kernel
    have components := adopted.components.handles
    rw [none_held, List.forall₂_nil_left_iff] at components
    have packages := adopted.packages.handles
    rw [stored] at packages
    obtain ⟨vim', rest, evaluated, others, packages⟩ := List.forall₂_cons_left_iff.mp packages
    obtain rfl := List.forall₂_nil_left_iff.mp others
    have disabled : ContextSet.evaluateItem {} (vim.withPriority 1 2).item = .ok (-1) :=
      ContextSet.evaluate_of_isValidName {} (by decide)
    have inactive := Except.ok.inj (disabled.symm.trans evaluated.priority_eq)
    rw [changes, none_held, stored, components, packages, changes_cons, ← inactive]
    rfl
  exact ⟨maintained, stored, adopted, one_changed ▸ ok, again ⟨4⟩⟩

end Profile

end HostProfile
