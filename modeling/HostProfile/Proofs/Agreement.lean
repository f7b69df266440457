import HostProfile.Proofs.ComponentSet.Environment
import HostProfile.Proofs.Packages.Reachable

/-!
# Ways to ask for a winner

The definitions of one name for one architecture lie in one chain, under the key by which they are
looked for, be it that others lie there as well. So the list of all winners, a look-up and the
export of variables choose from the same definitions, and all of them choose the first active one of
the highest priority.
-/

namespace HostProfile

theorem eq_toList_of_perm {α : Type} {xs : List α} {x : Option α} (perm : xs.Perm x.toList) :
    xs = x.toList := by
  cases x with
  | none => exact perm.eq_nil
  | some x => exact List.perm_singleton.mp perm

/-! ## Tables -/

namespace ItemTable

variable {T : Type} [Item T] {t : ItemTable T} {key name : String} {arch : Option String}

namespace WellFormed

variable (wf : t.WellFormed)
  (placed : ∀ a : T, Item.name a = name → Item.arch a = arch → t.keyOf a = key)

include wf placed

theorem filter_items_of_other {c : Chain T} (stored : c ∈ t.table.slots) (other : c.key ≠ key) :
    c.items.filter (Handle.defines name arch) = [] := by
  refine List.filter_eq_nil_iff.mpr fun h held own => other ?_
  rw [Handle.defines, Bool.and_eq_true, beq_iff_eq, beq_iff_eq] at own
  rw [← wf.keyOf_of_mem stored held, placed h.item own.1 own.2]

/-- What defines the name for the architecture lies in the chain of the key. -/
theorem filter_handles : t.handles.filter (Handle.defines name arch) =
    (t.chainAt key).items.filter (Handle.defines name arch) := by
  have others (c : Chain T) := wf.filter_items_of_other placed (c := c)
  rw [handles, List.filter_flatMap, wf.flatMap_slots others rfl]

/-- Of the winners of the table, one at most has the name and the architecture: the best of what
defines them. -/
theorem filter_resolve : t.resolve.filter (Handle.defines name arch) =
    (best? (t.handles.filter (Handle.defines name arch))).toList := by
  have alone (c : Chain T) : (sortHandles c.resolved).filter (Handle.defines name arch) =
      (c.activeFor? name arch).toList :=
    eq_toList_of_perm (c.filter_resolved name arch ▸ (perm_sortHandles c.resolved).filter _)
  have others (c : Chain T) (stored : c ∈ t.table.slots) (other : c.key ≠ key) :
      (c.activeFor? name arch).toList = [] := by
    show (best? (c.items.filter (Handle.defines name arch))).toList = []
    rw [wf.filter_items_of_other placed stored other]
    rfl
  have sorted := (List.mergeSort_perm t.table.slots fun a b =>
    (t.order.case.compare a.key b.key).isLE).flatMap_right fun c =>
      (c.activeFor? name arch).toList
  rw [resolve, List.filter_flatMap, wf.filter_handles placed]
  simp only [alone]
  exact eq_toList_of_perm (sorted.trans (.of_eq (wf.flatMap_slots others rfl)))

end WellFormed

end ItemTable

/-! ## Packages -/

namespace PackageSet

variable {s : PackageSet} {name : String} {arch : Option String} {byArch : Bool}

/-- The key under which the packages of a name and architecture lie. -/
def keyFor (byArch : Bool) (name : String) (arch : Option String) : String :=
  match byArch, arch with
  | true, some arch => name ++ "." ++ arch
  | _, _ => name

theorem keyOf_eq_keyFor (bucket : s.packages.bucket = if byArch then .nameArch else .name)
    (p : Package) (is : Item.name p = name) (of : Item.arch p = arch) :
    s.packages.keyOf p = keyFor byArch name arch := by
  subst is of
  rw [ItemTable.keyOf, bucket]
  cases byArch with
  | false => rfl
  | true =>
      simp only [if_true, keyFor, KeyScope.key]
      cases Item.arch p <;> rfl

/-- A look-up chooses among all packages of the name and architecture. -/
theorem findPackage?_eq (wf : s.packages.WellFormed)
    (bucket : s.packages.bucket = if byArch then .nameArch else .name) :
    s.findPackage? name arch = best? (s.packages.handles.filter (Handle.defines name arch)) := by
  have key : s.findPackage? name arch =
      (s.packages.find? (keyFor byArch name arch)).bind (·.activeFor? name arch) := by
    have own : s.bucketByArch = byArch := by
      rw [bucketByArch, bucket]
      cases byArch <;> rfl
    rw [← own]
    rfl
  rw [key, ItemTable.bind_find? rfl, wf.filter_handles (keyOf_eq_keyFor bucket)]
  rfl

end PackageSet

/-! ## Resources -/

namespace ComponentSet

variable {s : ComponentSet} {component name : String}

/-- The definitions of a resource in the set. -/
def definitions (s : ComponentSet) (component name : String) : List (Handle Resource) :=
  ((s.visible .all).filter fun entry => entry.1 = component ∧ entry.2.item.name = name).map (·.2)

theorem definitions_eq (wf : s.WellFormed) :
    s.definitions component name = (s.siteAt (component, name)).chain.items := by
  refine Eq.trans ?_ (share_visible wf (component, name))
  simp only [definitions, Sited.share, sited, Prod.mk.injEq]
  rfl

theorem resource?_eq_best? (wf : s.WellFormed) :
    s.resource? component name = best? (s.definitions component name) := by
  rw [resource?_eq, definitions_eq wf]

theorem definitions_eq_chain? (wf : s.WellFormed) :
    s.definitions component name = ((s.chain? component name).map (·.items)).getD [] := by
  rw [definitions_eq wf, chain?_eq]
  exact ItemTable.items_chainAt _ name

theorem defines_resource :
    (Handle.defines name none : Handle Resource → Bool) = (·.item.name == name) :=
  funext fun _ => Bool.and_true _

/-- The winners of a component have the one that is looked up. -/
theorem filter_resolve (wf : s.WellFormed) {c : Component} (found : s.find? component = some c) :
    c.resources.resolve.filter (·.item.name == name) = (s.resource? component name).toList := by
  have fits := (wf.stored found).fits
  have placed (r : Resource) (is : Item.name r = name) (_ : Item.arch r = none) :
      c.resources.keyOf r = name := by
    rw [ItemTable.keyOf, fits.bucket]
    exact is
  have site : (s.siteAt (component, name)).chain.items = (c.resources.chainAt name).items := by
    change ((s.componentAt component).resources.chainAt name).items = _
    rw [componentAt_of_some found]
  have all : (c.resources.chainAt name).items.filter (·.item.name == name) =
      (c.resources.chainAt name).items := by
    refine List.filter_eq_self.mpr fun h held => beq_iff_eq.mpr ?_
    have held : h ∈ (s.siteAt (component, name)).chain.items := site ▸ held
    exact name_of_mem_siteAt wf held
  rw [← defines_resource, fits.wellFormed.filter_resolve placed,
    fits.wellFormed.filter_handles placed, defines_resource, all, resource?_eq, site]

/-- The variables of a set have the value of the winner that is looked up. -/
theorem filter_environment (wf : s.WellFormed) (named : s.Named)
    (proper : Component.checkName component = .ok ()) :
    s.environment.filter (·.1 == Environment.variableName component name) =
      ((s.resource? component name).map fun h =>
        (Environment.variableName component name, h.item.value)).toList := by
  cases wins : s.resource? component name with
  | some h =>
      have listed := (mem_environment_iff wf).mpr ⟨component, name, h, wins, rfl⟩
      exact Environment.filter_name (distinct_environment wf named) listed
  | none =>
      refine List.filter_eq_nil_iff.mpr fun v listed same => ?_
      obtain ⟨component', name', h, wins', rfl⟩ := (mem_environment_iff wf).mp listed
      have held := (best?_eq_some ((resource?_eq s component' name').symm.trans wins')).1
      obtain ⟨rfl, rfl⟩ := Environment.variableName_inj (checkName_of_mem_siteAt named held) proper
        (eq_of_beq same)
      exact absurd (wins'.symm.trans wins) nofun

end ComponentSet

/-- All ways to ask for a winner agree. In a set of packages the winner of a name and architecture
is what a look-up finds, which is the first active package of the highest priority among all that
have them; these lie in one chain, and there is no winner exactly when none of them is active. In a
set of components, all of which have proper names, the same holds of the resources of a component,
and the variable of a resource has the value of the one that is found. -/
theorem winners_agree :
    (∀ (s : PackageSet) (byArch : Bool), s.Reachable →
      s.packages.bucket = (if byArch then .nameArch else .name) → ∀ name arch,
      let found := s.findPackage? name arch
      let rivals := s.packages.handles.filter (Handle.defines name arch)
      s.packages.resolve.filter (Handle.defines name arch) = found.toList ∧
      (found = none ↔ ∀ h ∈ rivals, Item.isActive h.item = false) ∧
      (∀ w, found = some w ↔ w.Wins rivals) ∧
      rivals = (s.packages.chainAt (PackageSet.keyFor byArch name arch)).items.filter
        (Handle.defines name arch)) ∧
    ∀ s : ComponentSet, s.Assembled → ∀ component name,
      let found := s.resource? component name
      let definitions := s.definitions component name
      (∀ c, s.find? component = some c → Component.checkName component = .ok () ∧
        c.resources.resolve.filter (·.item.name == name) = found.toList) ∧
      (Component.checkName component = .ok () →
        s.environment.filter (·.1 == Environment.variableName component name) =
          (found.map fun h => (Environment.variableName component name, h.item.value)).toList) ∧
      (found = none ↔ ∀ h ∈ definitions, Item.isActive h.item = false) ∧
      (∀ w, found = some w ↔ w.Wins definitions) ∧
      definitions = ((s.chain? component name).map (·.items)).getD [] := by
  constructor
  · intro s byArch reachable bucket name arch found rivals
    have wf := reachable.wellFormed
    have placed (p : Package) (is : Item.name p = name) (of : Item.arch p = arch) :=
      PackageSet.keyOf_eq_keyFor bucket p is of
    have best : found = best? rivals := PackageSet.findPackage?_eq wf bucket
    rw [best]
    exact ⟨wf.filter_resolve placed, best?_eq_none_iff, fun _ => best?_eq_some_iff,
      wf.filter_handles placed⟩
  · intro s assembled component name found definitions
    have wf := assembled.reachable.wellFormed
    have best : found = best? definitions := ComponentSet.resource?_eq_best? wf
    refine ⟨fun c stored => ⟨assembled.named component c stored,
        ComponentSet.filter_resolve wf stored⟩,
      ComponentSet.filter_environment wf assembled.named, ?_, fun w => ?_,
      ComponentSet.definitions_eq_chain? wf⟩
    · rw [best, best?_eq_none_iff]
    · rw [best, best?_eq_some_iff]

/-- Under one key lie a package whose name has a dot and packages for an architecture. Of these the
first of the highest priority wins, and so does one of two resources. -/
theorem winners_agree_under_one_key :
    let package (cell : Cell) (name : String) (arch : Option String) (priority : Int32) :
        Handle Package := ⟨cell, cell + 1, { name, arch, priority }⟩
    let dotted := package 0 "vim.x86_64" none 9
    let low := package 2 "vim" (some "x86_64") 0
    let high := package 4 "vim" (some "x86_64") 5
    let later := package 6 "vim" (some "x86_64") 5
    let off := package 8 "vim" none (-1)
    let packages := ([dotted, low, high, later, off].foldl
      (fun s h => (PackageSet.merge h s {}).state) (.empty { keepAll := true } .nameArch true))
    let value (cell : Cell) (value : String) (priority : Int32) : Handle Resource :=
      ⟨cell, cell + 1, { name := "port", value, priority }⟩
    let components := [value 0 "22" 1, value 2 "2222" 1].foldl
      (fun s h => (ComponentSet.mergeResource "ssh" h s {}).state)
      { table := .withBuckets 1, rules := { keepAll := true } }
    packages.Reachable ∧ packages.packages.handles.Perm [dotted, low, high, later, off] ∧
      packages.findPackage? "vim" (some "x86_64") = some high ∧
      packages.packages.resolve.filter (Handle.defines "vim" (some "x86_64")) = [high] ∧
      packages.packages.resolve.filter (Handle.defines "vim" none) = [] ∧
      components.Assembled ∧ components.resource? "ssh" "port" = some (value 0 "22" 1) ∧
      components.environment.filter (·.1 == "ssh.port") = [("ssh.port", "22")] := by
  intro package dotted low high later off packages value components
  have reachable : packages.Reachable := by
    have step {s : PackageSet} (h : Handle Package) (before : s.Reachable) :
        (PackageSet.merge h s {}).state.Reachable := before.merge h
    exact step off (step later (step high (step low (step dotted
      (PackageSet.reachable_empty _ _ _)))))
  have assembled : components.Assembled :=
    .mergeResource _ _ {} (.mergeResource _ _ {} (.empty _ _ none {} 1))
  obtain ⟨sets, groups⟩ := winners_agree
  have found : packages.findPackage? "vim" (some "x86_64") = some high := by decide +kernel
  have none_found : packages.findPackage? "vim" none = none := by decide +kernel
  have winner : components.resource? "ssh" "port" = some (value 0 "22" 1) := by decide +kernel
  obtain ⟨resolved, -⟩ := sets packages true reachable rfl "vim" (some "x86_64")
  obtain ⟨unresolved, -⟩ := sets packages true reachable rfl "vim" none
  obtain ⟨-, exported, -⟩ := groups components assembled "ssh" "port"
  rw [found] at resolved
  rw [none_found] at unresolved
  have value := exported (by decide +kernel)
  rw [winner] at value
  exact ⟨reachable, by decide +kernel, found, resolved, unresolved, assembled, winner, value⟩

end HostProfile
