import HostProfile.Proofs.ComponentSet.Indistinguishable
import HostProfile.Proofs.Packages.Reachable

/-!
# Merges that fail

A merge that fails may have put a chain or a component into a table, and the table may have grown
for it. All of this is taken back before the failure is reported, except for the number and the
order of the buckets, and so it shows nowhere.
-/

namespace HostProfile

/-- A merge of one definition that fails leaves a container that shows what the one before it did,
whether the definition, its mark or its context was refused, a rule or a pinned entry kept it out,
or the component was called by an improper name. -/
theorem failed_merge_unobservable (e : MergeError) (supply : Supply) :
    (∀ (T : Type) [Item T] [LawfulItem T] (t : ItemTable T) (h : Handle T), t.Reachable →
      (ItemTable.merge h t supply).result = .error e →
      t.Indistinguishable (ItemTable.merge h t supply).state) ∧
    (∀ (s : PackageSet) (h : Handle Package), s.Reachable →
      (PackageSet.merge h s supply).result = .error e →
      s.packages.Indistinguishable (PackageSet.merge h s supply).state.packages) ∧
    (∀ (l : PackageList) (h : Handle Package),
      (PackageList.merge h l supply).result = .error e →
      (PackageList.merge h l supply).state = l) ∧
    (∀ (c : Component) (h : Handle Resource), c.resources.Reachable →
      (Component.merge h c supply).result = .error e →
      c.Indistinguishable (Component.merge h c supply).state) ∧
    (∀ (s : ComponentSet) (name : String) (h : Handle Resource), s.Assembled →
      (ComponentSet.mergeResource name h s supply).result = .error e →
      s.Indistinguishable (ComponentSet.mergeResource name h s supply).state) := by
  refine ⟨?table, ?set, ?list, ?component, ?components⟩
  case table =>
    intro T _ _ t h reachable failed
    exact .of_merge_eq_error reachable.wellFormed failed
  case set =>
    intro s h reachable failed
    exact .of_merge_eq_error reachable.wellFormed failed
  case list =>
    intro l h failed
    have same := Chain.state_of_merge_eq_error failed
    exact congrArg (fun chain => { l with chain }) same
  case component =>
    intro c h reachable failed
    exact .of_merge_eq_error reachable.wellFormed failed
  case components =>
    intro s name h assembled failed
    exact .of_mergeResource_eq_error assembled.reachable.wellFormed assembled.named failed

/-- A mark that stands for no directive, a context that is no expression and a name with a dot. The
table of one bucket grows for the chain that it does not keep. -/
theorem failed_merge_unobservable_of_malformed :
    let vim : Handle Package := ⟨0, 1, { name := "vim" }⟩
    let marked : Handle Package := ⟨2, 3, { name := "git", mark := some '#' }⟩
    let torn : Handle Resource := ⟨4, 5, { name := "server", context := "$" }⟩
    let badMark : MergeError := .item (.directive '#')
    let badContext : MergeError := .item (.contextSyntax "$" (.unexpectedChar '$' 0))
    let badName : MergeError := .item (.componentName "n.tp")
    let table := (ItemTable.merge vim
      { table := .withBuckets 1, rules := .none, bucket := .name, scope := .name } ⟨6⟩).state
    let set := PackageSet.empty
    let list := PackageList.empty
    let component := (Component.empty "ntp" .none .name).setContexts (some ∅)
    let components : ComponentSet := { contexts := some ∅ }
    LawfulItem Package ∧ table.Reachable ∧
      (ItemTable.merge marked table ⟨6⟩).result = .error badMark ∧
      table.table.bucketCount = 1 ∧
      (ItemTable.merge marked table ⟨6⟩).state.table.bucketCount = 3 ∧
      table.Indistinguishable (ItemTable.merge marked table ⟨6⟩).state ∧
      set.Reachable ∧ (PackageSet.merge marked set ⟨6⟩).result = .error badMark ∧
      set.packages.Indistinguishable (PackageSet.merge marked set ⟨6⟩).state.packages ∧
      (PackageList.merge marked list ⟨6⟩).result = .error badMark ∧
      (PackageList.merge marked list ⟨6⟩).state = list ∧
      component.resources.Reachable ∧
      (Component.merge torn component ⟨6⟩).result = .error badContext ∧
      component.Indistinguishable (Component.merge torn component ⟨6⟩).state ∧
      components.Assembled ∧
      (ComponentSet.mergeResource "ntp" torn components ⟨6⟩).result = .error badContext ∧
      components.Indistinguishable
        (ComponentSet.mergeResource "ntp" torn components ⟨6⟩).state ∧
      (ComponentSet.mergeResource "n.tp" torn components ⟨6⟩).result = .error badName ∧
      components.Indistinguishable
        (ComponentSet.mergeResource "n.tp" torn components ⟨6⟩).state := by
  intro vim marked torn badMark badContext badName table set list component components
  obtain ⟨in_table, in_set, in_list, -, -⟩ := failed_merge_unobservable badMark ⟨6⟩
  obtain ⟨-, -, -, in_component, in_components⟩ := failed_merge_unobservable badContext ⟨6⟩
  obtain ⟨-, -, -, -, by_name⟩ := failed_merge_unobservable badName ⟨6⟩
  have reachable : table.Reachable := .merge vim ⟨6⟩ (.empty .none .name .name none {} 1)
  have reachable_set : set.Reachable := PackageSet.reachable_empty .standard .nameArch false
  have reachable_component : component.resources.Reachable :=
    .setContexts _ (.empty .none .name .name none {} _)
  have assembled : components.Assembled := .empty .standard .nameArchContext (some ∅) {} _
  have refused : (ItemTable.merge marked table ⟨6⟩).result = .error badMark := by decide +kernel
  have refused_set : (PackageSet.merge marked set ⟨6⟩).result = .error badMark := by decide +kernel
  have refused_list : (PackageList.merge marked list ⟨6⟩).result = .error badMark := by decide
  have refused_component : (Component.merge torn component ⟨6⟩).result = .error badContext := by
    decide +kernel
  have refused_components : (ComponentSet.mergeResource "ntp" torn components ⟨6⟩).result =
      .error badContext := by decide +kernel
  have refused_name : (ComponentSet.mergeResource "n.tp" torn components ⟨6⟩).result =
      .error badName := by decide +kernel
  exact ⟨inferInstance, reachable, refused, by decide +kernel, by decide +kernel,
    in_table Package table marked reachable refused, reachable_set, refused_set,
    in_set set marked reachable_set refused_set, refused_list, in_list list marked refused_list,
    reachable_component, refused_component,
    in_component component torn reachable_component refused_component, assembled,
    refused_components, in_components components "ntp" torn assembled refused_components,
    refused_name, by_name components "n.tp" torn assembled refused_name⟩

end HostProfile
