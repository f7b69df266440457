import HostProfile.Profile
import HostProfile.Proofs.ComponentSet.Environment
import HostProfile.Proofs.ComponentSet.Evaluation
import HostProfile.Proofs.ItemTable.Pruning
import HostProfile.Proofs.Packages.Reachable
import HostProfile.Proofs.Signature

/-!
# Pruning

Pruning takes the inactive definitions out of a container, and nothing that shows active ones alone
tells the difference: not a listing, a winner, a variable or a signature. What is left is in the
order in which it was, and neither a chain nor a component is left without a definition, so that
pruning once more does nothing. A set of components is pruned table by table, and a component whose
table is empty then is gone.
-/

namespace HostProfile

/-! ## Component sets -/

namespace ComponentSet

variable {s : ComponentSet} {name : String}

theorem count_prune (s : ComponentSet) :
    s.prune.2 = (s.visible .all).countP (Item.priority ·.2.item < 0) := by
  rw [visible_all]
  refine foldr_count (f := fun c : Component => c.resources.handles.map (c.name, ·))
    (fun c => ?_) s.table.slots
  rw [List.countP_map]
  exact c.resources.count_prune

/-- A component of the pruned set finds what it finds when it is pruned on its own. -/
theorem find?_componentAt_prune (wf : s.WellFormed) (name : String) :
    (s.prune.1.componentAt name).resources.find? =
      (s.componentAt name).resources.prune.1.find? := by
  funext key
  have inside := (wf.fits_componentAt name).wellFormed
  rw [← chain?_eq, chain?, find?_prune wf]
  cases found : s.find? name with
  | none =>
      rw [ItemTable.find?_prune inside, componentAt_of_none found, find?_emptyComponent]
      rfl
  | some c =>
      rw [componentAt_of_some found] at inside ⊢
      rw [Option.map_some, KeyedTable.filter_some_eq_kept]
      exact bind_kept inside.prune key

theorem chain?_prune (wf : s.WellFormed) (component key : String) :
    s.prune.1.chain? component key =
      ((s.chain? component key).map Chain.prune).filter (!Slot.isEmpty ·) := by
  rw [chain?_eq, find?_componentAt_prune wf,
    ItemTable.find?_prune (wf.fits_componentAt component).wellFormed, ← chain?_eq]

theorem resource?_prune (wf : s.WellFormed) : s.prune.1.resource? = s.resource? := by
  funext component name
  rw [resource?_eq_bind, resource?_eq_bind, chain?_eq, chain?_eq, find?_componentAt_prune wf]
  exact ItemTable.bind_find?_prune (wf.fits_componentAt component).wellFormed Chain.active?_prune
    rfl

theorem sortedBy_prune (wf : s.WellFormed) (case : CaseMode) :
    s.prune.1.sortedBy ⟨case, .active⟩ = s.sortedBy ⟨case, .active⟩ := by
  refine sortedBy_eq_of_componentAt wf.prune wf fun name => ?_
  have inside := (wf.fits_componentAt name).wellFormed
  have same := ItemTable.sortedBy_eq_of_find? inside.prune.sound
    (wf.prune.fits_componentAt name).wellFormed.sound (find?_componentAt_prune wf name)
  rw [same, ItemTable.sortedBy_prune inside]

theorem contents_prune (wf : s.WellFormed) : s.prune.1.contents = s.contents :=
  congrArg toJson (sortedBy_prune wf .sensitive)

theorem environment_prune (wf : s.WellFormed) (named : s.Named) :
    s.prune.1.environment = s.environment := by
  have := transCmp_on compare (Prod.fst : Environment.Variable → String)
  refine eq_of_strictly_sorted (pairwise_environment wf.prune (named.prune wf))
    (pairwise_environment wf named) fun v => ?_
  rw [mem_environment_iff wf.prune, mem_environment_iff wf, resource?_prune wf]

theorem handles_of_isEmpty {c : Component} (empty : Slot.isEmpty c = true) :
    c.resources.handles = [] := by
  have none_stored : c.resources.table.slots.length = 0 :=
    (KeyedTable.size_eq_length_slots _).symm.trans (eq_of_beq empty)
  rw [ItemTable.handles, List.length_eq_zero_iff.mp none_stored, List.flatMap_nil]

theorem perm_visible_prune (wf : s.WellFormed) : (s.prune.1.visible .all).Perm
    ((s.visible .all).filter (Item.isActive ·.2.item)) := by
  have slots := wf.sound.perm_of_found wf.prune.sound (f := Component.prune) (fun _ => rfl)
    (find?_prune wf)
  rw [visible_all, visible_all, List.filter_flatMap]
  refine (slots.flatMap_right _).trans ?_
  rw [flatMap_filter_of_nil, List.flatMap_map]
  · refine List.Perm.flatMap_left _ fun c stored => ?_
    have inside := (wf.stored (wf.sound.mem_slots_iff.mp stored)).fits.wellFormed
    rw [List.filter_map]
    exact (ItemTable.perm_handles_prune inside).map (c.name, ·)
  · intro c _ empty
    rw [handles_of_isEmpty (by simpa using empty), List.map_nil]

theorem mem_slots_prune (wf : s.WellFormed) {c : Component} (stored : c ∈ s.prune.1.table.slots) :
    c.resources.size ≠ 0 ∧ (∀ chain ∈ c.resources.table.slots, chain.items ≠ []) ∧
      c.resources.prune = (c.resources, 0) := by
  obtain ⟨pruned, nonempty⟩ := List.mem_filter.mp ((wf.sound.mem_slots_of_found wf.prune.sound
    (f := Component.prune) (fun _ => rfl) (find?_prune wf)).mp stored)
  obtain ⟨c, before, rfl⟩ := List.mem_map.mp pruned
  have inside := (wf.stored (wf.sound.mem_slots_iff.mp before)).fits.wellFormed
  refine ⟨fun none_left => ?_, fun chain held => (ItemTable.mem_slots_prune inside held).1,
    ItemTable.prune_prune inside⟩
  rw [Slot.isEmpty, Bool.not_eq_true'] at nonempty
  exact ne_of_beq_false nonempty none_left

/-- A pruned set is not changed by pruning. -/
theorem prune_prune (wf : s.WellFormed) : s.prune.1.prune = (s.prune.1, 0) := by
  have count : s.prune.1.prune.2 = 0 := by
    rw [count_prune, List.countP_eq_zero]
    intro entry member
    have active := (List.mem_filter.mp ((perm_visible_prune wf).mem_iff.mp member)).2
    rw [decide_eq_true_eq, Int32.not_lt]
    exact of_decide_eq_true active
  have slots : (s.prune.1.table.mapSlots Component.prune).retain (!Slot.isEmpty ·) =
      (s.prune.1.table, 0) := by
    have kept (c : Component) (stored : c ∈ s.prune.1.table.slots) : c.prune = c :=
      congrArg (fun pruned : ItemTable Resource × Nat => { c with resources := pruned.1 })
        (mem_slots_prune wf stored).2.2
    rw [KeyedTable.mapSlots_eq_self kept]
    refine KeyedTable.retain_eq_self fun c stored => ?_
    have nonempty := (mem_slots_prune wf stored).1
    exact Bool.not_eq_true' .. ▸ beq_false_of_ne nonempty
  exact Prod.ext (congrArg (fun slots => { s.prune.1 with table := slots.1 }) slots) count

end ComponentSet

/-! ## What pruning leaves -/

/-- The second table has the active definitions of the first, in chains as they were but for the
others, and shows no difference. The number is that of the others. -/
structure ItemTable.Pruned {T : Type} [Item T] (t t' : ItemTable T) (n : Nat) : Prop where
  count : n = t.handles.countP (Item.priority ·.item < 0)
  handles : t'.handles.Perm (t.handles.filter (0 ≤ Item.priority ·.item))
  chains : ∀ key, t'.find? key = ((t.find? key).map fun c =>
    { c with items := c.items.filter (0 ≤ Item.priority ·.item) }).filter (!·.items.isEmpty)
  nonempty : ∀ c ∈ t'.table.slots, c.items ≠ []
  sortedBy : ∀ case, t'.sortedBy ⟨case, .active⟩ = t.sortedBy ⟨case, .active⟩
  resolve : t'.resolve = t.resolve
  contents : t'.contents = t.contents
  signature : t'.signature = t.signature
  again : t'.prune = (t', 0)

theorem ItemTable.WellFormed.pruned {T : Type} [Item T] {t : ItemTable T} (wf : t.WellFormed) :
    t.Pruned t.prune.1 t.prune.2 where
  count := t.count_prune
  handles := perm_handles_prune wf
  chains := find?_prune wf
  nonempty _ stored := (mem_slots_prune wf stored).1
  sortedBy := sortedBy_prune wf
  resolve := resolve_prune wf
  contents := contents_prune wf
  signature := congrArg (fun contents : Json => Digest.ofText contents.render) (contents_prune wf)
  again := prune_prune wf

/-- The same of a set of packages, in which moreover the same packages are found. -/
structure PackageSet.Pruned (s s' : PackageSet) (n : Nat) : Prop where
  packages : s.packages.Pruned s'.packages n
  findPackage? : s'.findPackage? = s.findPackage?
  again : s'.prune = (s', 0)

theorem PackageSet.Reachable.pruned {s : PackageSet} (reachable : s.Reachable) :
    s.Pruned s.prune.1 s.prune.2 where
  packages := reachable.wellFormed.pruned
  findPackage? := by
    funext name arch
    exact ItemTable.bind_find?_prune reachable.wellFormed
      (fun c => c.activeFor?_prune name arch) rfl
  again := congrArg (fun pruned : ItemTable Package × Nat => ((⟨pruned.1⟩ : PackageSet), pruned.2))
    (ItemTable.prune_prune reachable.wellFormed)

/-- The same of a set of components, each of which is pruned. None is left without resources. -/
structure ComponentSet.Pruned (s s' : ComponentSet) (n : Nat) : Prop where
  count : n = (s.visible .all).countP (Item.priority ·.2.item < 0)
  resources : (s'.visible .all).Perm ((s.visible .all).filter (0 ≤ Item.priority ·.2.item))
  chains : ∀ component key, s'.chain? component key = ((s.chain? component key).map fun c =>
    { c with items := c.items.filter (0 ≤ Item.priority ·.item) }).filter (!·.items.isEmpty)
  components : ∀ name c', s'.find? name = some c' →
    ∃ c n, s.find? name = some c ∧ c.resources.Pruned c'.resources n
  nonempty : ∀ c ∈ s'.table.slots,
    c.resources.size ≠ 0 ∧ ∀ chain ∈ c.resources.table.slots, chain.items ≠ []
  sortedBy : ∀ case, s'.sortedBy ⟨case, .active⟩ = s.sortedBy ⟨case, .active⟩
  environment : s'.environment = s.environment
  resource? : s'.resource? = s.resource?
  contents : s'.contents = s.contents
  signature : s'.signature = s.signature
  again : s'.prune = (s', 0)

theorem ComponentSet.Assembled.pruned {s : ComponentSet} (assembled : s.Assembled) :
    s.Pruned s.prune.1 s.prune.2 :=
  have wf := assembled.reachable.wellFormed
  { count := s.count_prune
    resources := perm_visible_prune wf
    chains := chain?_prune wf
    components name c' found := by
      rw [find?_prune wf] at found
      obtain ⟨c, before, rfl⟩ := Option.map_eq_some_iff.mp (Option.filter_eq_some_iff.mp found).1
      exact ⟨c, _, before, (wf.stored before).fits.wellFormed.pruned⟩
    nonempty _ stored := ⟨(mem_slots_prune wf stored).1, (mem_slots_prune wf stored).2.1⟩
    sortedBy := sortedBy_prune wf
    environment := environment_prune wf assembled.named
    resource? := resource?_prune wf
    contents := contents_prune wf
    signature := congrArg (fun contents : Json => Digest.ofText contents.render) (contents_prune wf)
    again := prune_prune wf }

/-- The same of both parts of a profile. -/
structure Profile.Pruned (p p' : Profile) (n : Nat) : Prop where
  count : n = (p.components.visible .all).countP (Item.priority ·.2.item < 0) +
    p.packages.packages.handles.countP (Item.priority ·.item < 0)
  components : p.components.Pruned p'.components
    ((p.components.visible .all).countP (Item.priority ·.2.item < 0))
  packages : p.packages.Pruned p'.packages
    (p.packages.packages.handles.countP (Item.priority ·.item < 0))
  contents : p'.contents = p.contents
  signature : p'.signature = p.signature
  again : p'.prune = (p', 0)

theorem Profile.pruned {p : Profile} (components : p.components.Assembled)
    (packages : p.packages.Reachable) : p.Pruned p.prune.1 p.prune.2 := by
  have resources := components.pruned
  have others := packages.pruned
  have contents : p.prune.1.contents = p.contents := by
    exact congrArg toJson (Prod.ext resources.signature others.packages.signature)
  exact {
    count := congrArg₂ (· + ·) resources.count others.packages.count
    components := resources.count ▸ resources
    packages := others.packages.count ▸ others
    contents
    signature := congrArg (fun contents : Json => Digest.ofText contents.render) contents
    again := congrArg₂ (fun (a : ComponentSet × Nat) (b : PackageSet × Nat) =>
      ((⟨a.1, b.1⟩ : Profile), a.2 + b.2)) resources.again others.again }

/-- Pruning shows nowhere. It answers with the number of the inactive definitions, takes out these
alone, and leaves neither empty chains nor empty components. Listings of active definitions,
winners, variables and signatures stay as they were, and a second pruning does nothing. -/
theorem pruning_shows_nowhere {T : Type} [Item T] [LawfulItem T] :
    (∀ t : ItemTable T, t.Reachable → t.Pruned t.prune.1 t.prune.2) ∧
    (∀ s : PackageSet, s.Reachable → s.Pruned s.prune.1 s.prune.2) ∧
    (∀ s : ComponentSet, s.Assembled → s.Pruned s.prune.1 s.prune.2) ∧
    ∀ p : Profile, p.components.Assembled → p.packages.Reachable → p.Pruned p.prune.1 p.prune.2 :=
  ⟨fun _ reachable => reachable.wellFormed.pruned, fun _ reachable => reachable.pruned,
    fun _ assembled => assembled.pruned, fun _ => Profile.pruned⟩

/-- Of two packages in one chain, one is inactive, and a chain and a component have nothing else. -/
theorem pruning_shows_nowhere_of_inactive :
    let package (cell : Cell) (name : String) (arch : Option String) (priority : Int32) :
        Handle Package := ⟨cell, cell + 1, { name, arch, priority }⟩
    let vim := package 0 "vim" none 1
    let none_yet : PackageSet :=
      ⟨{ table := .withBuckets 1, rules := .standard, bucket := .name, scope := .nameArch }⟩
    let packages := [vim, package 2 "vim" (some "x86_64") (-1), package 4 "git" none (-2)].foldl
      (fun s h => (PackageSet.merge h s {}).state) none_yet
    let value (cell : Cell) (name : String) (priority : Int32) : Handle Resource :=
      ⟨cell, cell + 1, { name, priority }⟩
    let port := ("ssh", value 0 "port" 1)
    let dns := ("net", value 2 "dns" (-1))
    let components := [port, dns].foldl
      (fun s v => (ComponentSet.mergeResource v.1 v.2 s {}).state) { table := .withBuckets 1 }
    let p : Profile := ⟨components, packages⟩
    p.components.Assembled ∧ p.packages.Reachable ∧ (p.components.visible .all).Perm [port, dns] ∧
      p.prune.2 = 3 ∧ p.prune.1.packages.packages.handles.Perm [vim] ∧
      (p.prune.1.components.visible .all).Perm [port] ∧
      p.prune.1.packages.findPackage? "vim" none = some vim ∧
      p.prune.1.components.environment = p.components.environment ∧
      p.prune.1.signature = p.signature ∧ p.prune.1.prune = (p.prune.1, 0) := by
  intro package vim none_yet packages value port dns components p
  have assembled : p.components.Assembled :=
    .mergeResource _ _ {} (.mergeResource _ _ {} (.empty _ _ none {} 1))
  have reachable : p.packages.Reachable := by
    have step {s : PackageSet} (h : Handle Package) (before : s.Reachable) :
        (PackageSet.merge h s {}).state.Reachable := before.merge h
    exact step _ (step _ (step vim (.empty .standard .name .nameArch none {} 1)))
  obtain ⟨-, -, -, profiles⟩ := pruning_shows_nowhere (T := Package)
  have pruned := profiles p assembled reachable
  have resources : (p.components.visible .all).Perm [port, dns] := by decide +kernel
  have stored : p.packages.packages.handles.filter (0 ≤ Item.priority ·.item) = [vim] := by
    decide +kernel
  have inactive : p.packages.packages.handles.countP (Item.priority ·.item < 0) = 2 := by
    decide +kernel
  have winner : p.packages.findPackage? "vim" none = some vim := by decide +kernel
  have count := pruned.count
  rw [resources.countP_eq, inactive] at count
  exact ⟨assembled, reachable, resources, count.trans (by decide +kernel),
    pruned.packages.packages.handles.trans (.of_eq stored),
    (pruned.components.resources.trans (resources.filter _)).trans (.of_eq (by decide +kernel)),
    (congrFun (congrFun pruned.packages.findPackage? "vim") none).trans winner,
    pruned.components.environment, pruned.signature, pruned.again⟩

end HostProfile
