import HostProfile.Proofs.ComponentSet.Bulk
import HostProfile.Profile

/-!
# Bulk merges

Merging a chain, a table, a list, a component, a set or a whole layer comes to the same as merging
its definitions one at a time up to the first that fails: it reports what these merges do, and
leaves the chains and the components that they leave.
-/

namespace HostProfile

open HostProfile.Action

namespace Profile

/-- The second profile shows what the first one does. -/
structure Indistinguishable (p p' : Profile) : Prop where
  components : p.components.Indistinguishable p'.components
  packages : p.packages.packages.Indistinguishable p'.packages.packages

/-- Merges one definition: a resource into the component of the name, or a package. -/
def mergeOne : (String × Handle Resource) ⊕ Handle Package → Action Profile Change
  | .inl (name, h) => onComponents (ComponentSet.mergeResource name h)
  | .inr h => onPackages (PackageSet.merge h)

/-- The definitions of a profile: the resources and then the packages, inactive ones included. -/
def definitions (p : Profile) : List ((String × Handle Resource) ⊕ Handle Package) :=
  (p.components.visible .all).map .inl ++ (p.packages.packages.visible .all).map .inr

end Profile

/-! ## Chains, tables and lists -/

theorem Chain.replays_mergeChain {T : Type} [Item T] (contexts : Option ContextSet)
    (other c : Chain T) :
    Replays Eq (mergeChain contexts other) (merge contexts) other.items c := by
  refine replays_of_alike (P := fun _ => True) (fun _ _ _ _ _ => trivial) (fun _ _ => rfl) .trans
    ?_ trivial fun _ => ⟨rfl, rfl, rfl⟩
  intro h _ c supply e _ failed
  exact (state_of_merge_eq_error failed).symm

theorem ItemTable.replays_each {T : Type} [Item T] [LawfulItem T] {t : ItemTable T}
    (reachable : t.Reachable) (hs : List (Handle T)) :
    Replays Indistinguishable (each merge hs) merge hs t := by
  refine replays_of_alike (P := Reachable) ?_ (fun t _ => .refl t) .trans ?_ reachable
    fun _ => ⟨rfl, rfl, .refl _⟩
  · intro h _ t supply before
    exact before.merge h supply
  · intro h _ t supply e before failed
    exact .of_merge_eq_error before.wellFormed failed

/-- Both sets hold the same packages, in buckets of their own. -/
abbrev PackageSet.Indistinguishable (s s' : PackageSet) : Prop :=
  s.packages.Indistinguishable s'.packages

theorem PackageSet.each_merge (hs : List (Handle Package)) :
    each merge hs = onPackages (each ItemTable.merge hs) :=
  each_part PackageSet.packages (fun _ packages => ⟨packages⟩) (fun _ => rfl) (fun _ _ => rfl)
    (fun _ _ _ => rfl) ItemTable.merge hs

theorem PackageSet.replays_each {s : PackageSet} (reachable : s.Reachable)
    (hs : List (Handle Package)) :
    Replays Indistinguishable (onPackages (each ItemTable.merge hs)) merge hs s := by
  rw [← each_merge]
  refine replays_of_alike (P := Reachable) ?_ (fun s _ => .refl s.packages) .trans ?_ reachable
    fun _ => ⟨rfl, rfl, .refl _⟩
  · intro h _ s supply before
    exact before.merge h
  · intro h _ s supply e before failed
    exact .of_merge_eq_error before.wellFormed failed

theorem PackageList.replays_mergeList (other l : PackageList) :
    Replays Eq (mergeList other) merge other.chain.items l := by
  refine replays_of_alike (P := fun _ => True) (fun _ _ _ _ _ => trivial) (fun _ _ => rfl) .trans
    ?_ trivial fun supply => ?_
  · intro h _ l supply e _ failed
    exact congrArg (fun chain => { l with chain }) (Chain.state_of_merge_eq_error failed).symm
  · -- The list keeps its contexts, so that every merge is one in the chain with these contexts.
    have alike : Outcome.Alike (fun chain l' => l' = { l with chain })
        (each (Chain.merge l.contexts) other.chain.items l.chain supply)
        (each merge other.chain.items l supply) := by
      refine each_alike (fun h _ chain l' supply related => ?_) l.chain l supply rfl
      subst related
      exact ⟨rfl, rfl, rfl⟩
    exact ⟨alike.result.symm, alike.supply.symm, alike.state⟩

/-! ## Components -/

theorem Component.replays_mergeComponent {c : Component} (reachable : c.resources.Reachable)
    (other : Component) :
    Replays Indistinguishable (mergeComponent other) merge (other.resources.visible .all) c := by
  rw [mergeComponent_eq, ItemTable.visible_all]
  refine replays_of_alike (P := fun c => c.resources.Reachable) ?_ (fun c _ => .refl c) .trans ?_
    reachable fun _ => ⟨rfl, rfl, .refl _⟩
  · intro h _ c supply before
    exact before.merge h supply
  · intro h _ c supply e before failed
    exact .of_merge_eq_error before.wellFormed failed

namespace ComponentSet

variable {s : ComponentSet}

/-- The names of the components are proper ones, as every component that was created has. -/
def Proper (s : ComponentSet) : Prop :=
  ∀ c ∈ s.table.slots, Component.checkName c.name = .ok ()

theorem assembled_each {vs : List (String × Handle Resource)} (assembled : s.Assembled)
    (supply : Supply) : (each (fun v => mergeResource v.1 v.2) vs s supply).state.Assembled :=
  each_keeps (P := Assembled) (fun v _ _ supply before => before.mergeResource v.1 v.2 supply)
    s supply assembled

/-- What finds the same as a run of single merges replays them. -/
theorem replays_of_sameFinds {bulk : Action ComponentSet Change}
    {vs : List (String × Handle Resource)} (assembled : s.Assembled)
    (alike : ∀ supply, Outcome.Alike SameFinds (each (fun v => mergeResource v.1 v.2) vs s supply)
      (bulk s supply)) :
    Replays Indistinguishable bulk (fun v => mergeResource v.1 v.2) vs s := by
  refine replays_of_alike (P := Assembled) ?_ (fun s _ => .refl s) .trans ?_ assembled
    fun supply => ⟨(alike supply).result, (alike supply).supply, ?_⟩
  · intro v _ s supply before
    exact before.mergeResource v.1 v.2 supply
  · intro v _ s supply e before failed
    exact .of_mergeResource_eq_error before.reachable.wellFormed before.named failed
  · exact (alike supply).state.indistinguishable (assembled_each assembled supply).named

theorem replays_mergeComponent (assembled : s.Assembled) {c : Component}
    (valid : Component.checkName c.name = .ok ()) :
    Replays Indistinguishable (mergeComponent c) (fun v => mergeResource v.1 v.2)
      ((c.resources.visible .all).map (c.name, ·)) s := by
  refine replays_of_sameFinds assembled fun supply => ?_
  rw [each_map, ItemTable.visible_all]
  exact each_mergeResource_alike assembled.reachable.wellFormed valid supply

theorem replays_mergeSet (assembled : s.Assembled) {other : ComponentSet} (proper : other.Proper) :
    Replays Indistinguishable (mergeSet other) (fun v => mergeResource v.1 v.2)
      (other.visible .all) s :=
  replays_of_sameFinds assembled (each_visible_alike assembled.reachable.wellFormed proper)

end ComponentSet

/-! ## Profiles -/

namespace Profile

theorem each_inl (vs : List (String × Handle Resource)) :
    each (fun v => mergeOne (.inl v)) vs =
      onComponents (each (fun v => ComponentSet.mergeResource v.1 v.2) vs) :=
  each_part Profile.components (fun p components => { p with components }) (fun _ => rfl)
    (fun _ _ => rfl) (fun _ _ _ => rfl)
    (fun v : String × Handle Resource => ComponentSet.mergeResource v.1 v.2) vs

theorem each_inr (hs : List (Handle Package)) :
    each (fun h => mergeOne (.inr h)) hs = onPackages (each PackageSet.merge hs) :=
  each_part Profile.packages (fun p packages => { p with packages }) (fun _ => rfl)
    (fun _ _ => rfl) (fun _ _ _ => rfl) PackageSet.merge hs

/-- A layer is merged like its definitions, all resources before all packages. -/
theorem each_definitions_alike {p layer : Profile} (wf : p.components.WellFormed)
    (proper : layer.components.Proper) (supply : Supply) :
    Outcome.Alike (fun p p' => p.components.SameFinds p'.components ∧ p'.packages = p.packages)
      (each mergeOne layer.definitions p supply) (merge layer p supply) := by
  have resources := ComponentSet.each_visible_alike wf proper supply
  rw [definitions, each_append, each_map, each_map, each_inl, each_inr, merge]
  refine Outcome.Alike.andThen ⟨resources.result, resources.supply, resources.state, rfl⟩ ?_
  intro change p p' supply ⟨components, packages⟩
  rw [ItemTable.visible_all, PackageSet.each_merge, ← ItemTable.mergeTable_eq]
  refine Outcome.Alike.map ?_ change.aggregate
  simp only [onPackages, packages]
  exact ⟨rfl, rfl, components, rfl⟩

namespace Indistinguishable

theorem refl (p : Profile) : p.Indistinguishable p := ⟨.refl _, .refl _⟩

theorem trans {p p' p'' : Profile} (first : p.Indistinguishable p')
    (second : p'.Indistinguishable p'') : p.Indistinguishable p'' :=
  ⟨first.components.trans second.components, first.packages.trans second.packages⟩

/-- A definition that is refused shows nowhere. -/
theorem of_mergeOne_eq_error {p : Profile} (assembled : p.components.Assembled)
    (reachable : p.packages.Reachable) {d : (String × Handle Resource) ⊕ Handle Package}
    {supply : Supply} {e : MergeError} (failed : (mergeOne d p supply).result = .error e) :
    p.Indistinguishable (mergeOne d p supply).state := by
  cases d with
  | inl v =>
      refine ⟨?_, .refl _⟩
      exact .of_mergeResource_eq_error assembled.reachable.wellFormed assembled.named failed
  | inr h => exact ⟨.refl _, .of_merge_eq_error reachable.wellFormed failed⟩

end Indistinguishable

theorem mergeOne_keeps {p : Profile} (d : (String × Handle Resource) ⊕ Handle Package)
    (supply : Supply) (before : p.components.Assembled ∧ p.packages.Reachable) :
    (mergeOne d p supply).state.components.Assembled ∧
      (mergeOne d p supply).state.packages.Reachable := by
  cases d with
  | inl v => exact ⟨before.1.mergeResource v.1 v.2 supply, before.2⟩
  | inr h => exact ⟨before.1, before.2.merge h⟩

theorem replays_merge {p layer : Profile} (assembled : p.components.Assembled)
    (reachable : p.packages.Reachable) (proper : layer.components.Proper) :
    Replays Indistinguishable (merge layer) mergeOne layer.definitions p := by
  refine replays_of_alike (P := fun p => p.components.Assembled ∧ p.packages.Reachable)
    (fun d _ _ supply before => mergeOne_keeps d supply before) (fun p _ => .refl p) .trans
    (fun d _ _ supply e before failed => .of_mergeOne_eq_error before.1 before.2 failed)
    ⟨assembled, reachable⟩ fun supply => ?_
  obtain ⟨result, left, components, packages⟩ :=
    each_definitions_alike assembled.reachable.wellFormed proper supply
  have after : (each mergeOne layer.definitions p supply).state.components.Assembled ∧
      (each mergeOne layer.definitions p supply).state.packages.Reachable :=
    each_keeps (P := fun p => p.components.Assembled ∧ p.packages.Reachable)
      (fun d _ _ supply before => mergeOne_keeps d supply before) p supply ⟨assembled, reachable⟩
  refine ⟨result, left, components.indistinguishable after.1.named, ?_⟩
  rw [packages]
  exact .refl _

end Profile

/-! ## All of them -/

/-- Every bulk merge does what its definitions do when they are merged one at a time, in the order
of buckets and chains and with the inactive ones among them: it stops at the first that fails and
reports why, and otherwise reports whether any of them did something, and what it leaves shows the
chains and components that they leave. A layer is merged with all of its resources before all of its
packages. -/
theorem bulk_merge_replays {T : Type} [Item T] [LawfulItem T] :
    (∀ (contexts : Option ContextSet) (other c : Chain T),
      Replays Eq (Chain.mergeChain contexts other) (Chain.merge contexts) other.items c) ∧
    (∀ (c : Chain T) (t : ItemTable T), t.Reachable →
      Replays ItemTable.Indistinguishable (ItemTable.mergeChain c) ItemTable.merge c.items t) ∧
    (∀ other t : ItemTable T, t.Reachable →
      Replays ItemTable.Indistinguishable (ItemTable.mergeTable other) ItemTable.merge
        (other.visible .all) t) ∧
    (∀ other l : PackageList,
      Replays Eq (PackageList.mergeList other) PackageList.merge other.chain.items l) ∧
    (∀ (list : PackageList) (s : PackageSet), s.Reachable →
      Replays PackageSet.Indistinguishable (PackageSet.mergeList list) PackageSet.merge
        list.chain.items s) ∧
    (∀ other s : PackageSet, s.Reachable →
      Replays PackageSet.Indistinguishable (PackageSet.mergeSet other) PackageSet.merge
        (other.packages.visible .all) s) ∧
    (∀ other c : Component, c.resources.Reachable →
      Replays Component.Indistinguishable (Component.mergeComponent other) Component.merge
        (other.resources.visible .all) c) ∧
    (∀ (c : Component) (s : ComponentSet), s.Assembled → Component.checkName c.name = .ok () →
      Replays ComponentSet.Indistinguishable (ComponentSet.mergeComponent c)
        (fun v => ComponentSet.mergeResource v.1 v.2)
        ((c.resources.visible .all).map (c.name, ·)) s) ∧
    (∀ other s : ComponentSet, s.Assembled → other.Proper →
      Replays ComponentSet.Indistinguishable (ComponentSet.mergeSet other)
        (fun v => ComponentSet.mergeResource v.1 v.2) (other.visible .all) s) ∧
    (∀ layer p : Profile, p.components.Assembled → p.packages.Reachable →
      layer.components.Proper →
      Replays Profile.Indistinguishable (Profile.merge layer) Profile.mergeOne layer.definitions
        p) := by
  refine ⟨Chain.replays_mergeChain, ?chain, ?table, PackageList.replays_mergeList, ?list, ?set,
    ?component, ?components, ?sets, ?layer⟩
  case chain =>
    intro c t reachable
    exact ItemTable.replays_each reachable c.items
  case table =>
    intro other t reachable
    rw [ItemTable.mergeTable_eq, ItemTable.visible_all]
    exact ItemTable.replays_each reachable other.handles
  case list =>
    intro list s reachable
    exact PackageSet.replays_each reachable list.chain.items
  case set =>
    intro other s reachable
    rw [PackageSet.mergeSet, ItemTable.mergeTable_eq, ItemTable.visible_all]
    exact PackageSet.replays_each reachable other.packages.handles
  case component =>
    intro other c reachable
    exact Component.replays_mergeComponent reachable other
  case components =>
    intro c s assembled valid
    exact ComponentSet.replays_mergeComponent assembled valid
  case sets =>
    intro other s assembled proper
    exact ComponentSet.replays_mergeSet assembled proper
  case layer =>
    intro layer p assembled reachable proper
    exact Profile.replays_merge assembled reachable proper

/-- A list stops at a mark that stands for no directive, and a layer at the first resource of a new
component, whose context is no expression. The package behind it is not merged any more. -/
theorem bulk_merge_replays_of_refused :
    let vim : Handle Package := ⟨0, 1, { name := "vim" }⟩
    let marked : Handle Package := ⟨2, 3, { name := "git", mark := some '#' }⟩
    let torn : Handle Resource := ⟨4, 5, { name := "server", context := "$" }⟩
    let list := PackageList.ofHandles [vim, marked]
    let set := PackageSet.empty
    let resources := (ComponentSet.mergeResource "ntp" torn {} ⟨6⟩).state
    let ntp := resources.componentAt "ntp"
    let layer : Profile := ⟨resources, (PackageSet.merge vim set ⟨6⟩).state⟩
    let host : Profile := ⟨{ contexts := some ∅ }, set⟩
    (LawfulItem Package ∧ set.Reachable ∧ host.components.Assembled ∧
      Component.checkName ntp.name = .ok () ∧ layer.components.Proper) ∧
      (PackageSet.mergeList list set ⟨6⟩).result = .error (.item (.directive '#')) ∧
      (singly PackageSet.merge list.chain.items set ⟨6⟩).changes = [.added] ∧
      Replays PackageSet.Indistinguishable (PackageSet.mergeList list) PackageSet.merge
        list.chain.items set ∧
      Replays ComponentSet.Indistinguishable (ComponentSet.mergeComponent ntp)
        (fun v => ComponentSet.mergeResource v.1 v.2)
        ((ntp.resources.visible .all).map (ntp.name, ·)) host.components ∧
      (Profile.merge layer host ⟨6⟩).result =
        .error (.item (.contextSyntax "$" (.unexpectedChar '$' 0))) ∧
      Replays Profile.Indistinguishable (Profile.merge layer) Profile.mergeOne layer.definitions
        host := by
  intro vim marked torn list set resources ntp layer host
  obtain ⟨-, -, -, -, lists, -, -, components, -, layers⟩ := bulk_merge_replays (T := Package)
  have reachable : set.Reachable := PackageSet.reachable_empty ..
  have assembled : host.components.Assembled := .empty .standard .nameArchContext (some ∅) {} _
  have proper : layer.components.Proper := by
    unfold ComponentSet.Proper
    decide +kernel
  have valid : Component.checkName ntp.name = .ok () := by
    rw [ComponentSet.name_componentAt]
    decide
  exact ⟨⟨inferInstance, reachable, assembled, valid, proper⟩, by decide +kernel,
    by decide +kernel, lists list set reachable, components ntp host.components assembled valid,
    by decide +kernel, layers layer host assembled reachable proper⟩

end HostProfile
