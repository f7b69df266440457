import HostProfile.Proofs.ComponentSet.Listing
import HostProfile.Proofs.Packages.Reachable

/-!
# What signatures tell

The text that is digested lists the active items in their canonical order. Merge rules, bucket
counts, output orders and the history of a container show in it at one point only: items that
differ in nothing but derivation or priority are of one rank in the canonical order, and stay as
they came in.
-/

namespace HostProfile

variable {T : Type} [Item T]

/-- No two different items of the list have the same fields. -/
def Untied (items : List T) : Prop :=
  ∀ x ∈ items, ∀ y ∈ items, Item.sameFields x y = true → x = y

theorem ItemTable.contents_eq (t : ItemTable T) :
    t.contents = toJson (t.sortedItems .canonical) := by
  refine congrArg Json.arr ?_
  rw [sortedItems, List.map_map]
  rfl

theorem ComponentSet.contents_eq (s : ComponentSet) :
    s.contents = toJson (s.sortedItems .canonical) := by
  have resources (handles : List (Handle Resource)) :
      toJson handles = toJson (handles.map (·.item)) := by
    refine congrArg Json.arr ?_
    rw [List.map_map]
    rfl
  refine congrArg Json.arr ?_
  rw [sortedItems, List.map_map]
  refine List.map_congr_left fun entry _ => ?_
  exact congrArg (fun items => Json.arr [toJson entry.1, items]) (resources entry.2)

/-- Two containers list their active items alike in the canonical order exactly when those with the
same fields come in the same order in both, and the same text is digested for both then. Where no
two of the items have the same fields, it is enough that both hold the same items. -/
theorem contents_of_same_items [LawfulItem T] [OrderedItem T] :
    (∀ t t' : ItemTable T, t.Reachable → t'.Reachable → t.bucket = t'.bucket →
      (t.sortedItems .canonical = t'.sortedItems .canonical ↔
        ClasswiseEq (t.items .active) (t'.items .active)) ∧
      (ClasswiseEq (t.items .active) (t'.items .active) →
        t.contents.render = t'.contents.render) ∧
      ((t.items .active).Perm (t'.items .active) → Untied (t.items .active) →
        t.contents.render = t'.contents.render)) ∧
    ∀ s s' : ComponentSet, s.Reachable → s'.Reachable →
      (s.sortedItems .canonical = s'.sortedItems .canonical ↔
        ∀ name, ClasswiseEq (s.itemsAt .active name) (s'.itemsAt .active name)) ∧
      ((∀ name, ClasswiseEq (s.itemsAt .active name) (s'.itemsAt .active name)) →
        s.contents.render = s'.contents.render) ∧
      ((∀ name, (s.itemsAt .active name).Perm (s'.itemsAt .active name)) →
        (∀ name, Untied (s.itemsAt .active name)) → s.contents.render = s'.contents.render) := by
  constructor
  · intro t t' reachable reachable' bucket
    have listed := ItemTable.sortedItems_eq_iff reachable.wellFormed reachable'.wellFormed bucket
      .canonical
    have same_text (agree : ClasswiseEq (t.items .active) (t'.items .active)) :
        t.contents.render = t'.contents.render := by
      rw [t.contents_eq, t'.contents_eq, listed.mpr agree]
    exact ⟨listed, same_text, fun perm untied => same_text (.of_perm perm untied)⟩
  · intro s s' reachable reachable'
    have listed := ComponentSet.sortedItems_eq_iff reachable.wellFormed reachable'.wellFormed
      .canonical
    have same_text (agree : ∀ name, ClasswiseEq (s.itemsAt .active name)
        (s'.itemsAt .active name)) : s.contents.render = s'.contents.render := by
      rw [s.contents_eq, s'.contents_eq, listed.mpr agree]
    exact ⟨listed, same_text,
      fun perm untied => same_text fun name => .of_perm (perm name) (untied name)⟩

/-- What is merged in the opposite order, by other rules and into another number of buckets, is
digested as the same text. -/
theorem contents_of_same_items_merged_oppositely :
    let vim (cell : Cell) (arch : String) : Handle Package :=
      ⟨cell, cell + 1, { name := "vim", arch := some arch }⟩
    let packages (n : Nat) (rules : MergeRules) (first second : Handle Package) : PackageSet :=
      let empty : PackageSet :=
        ⟨{ table := .withBuckets n, rules, bucket := .name, scope := .nameArch }⟩
      (PackageSet.merge second (PackageSet.merge first empty ⟨4⟩).state ⟨4⟩).state
    let value (cell : Cell) (name : String) : Handle Resource := ⟨cell, cell + 1, { name }⟩
    let components (n : Nat) (rules : MergeRules) (first second : Handle Resource) : ComponentSet :=
      let empty : ComponentSet := { table := .withBuckets n, rules }
      (ComponentSet.mergeResource "ssh" second
        (ComponentSet.mergeResource "ssh" first empty ⟨4⟩).state ⟨4⟩).state
    let one := packages 1 .standard (vim 0 "x86_64") (vim 2 "aarch64")
    let one' := packages 7 { keepAll := true } (vim 2 "aarch64") (vim 0 "x86_64")
    let ssh := components 1 .standard (value 0 "port") (value 2 "user")
    let ssh' := components 7 { keepAll := true } (value 2 "user") (value 0 "port")
    one.packages.items .active ≠ one'.packages.items .active ∧
      one.packages.contents.render = one'.packages.contents.render ∧
      ssh.itemsAt .active "ssh" = [(value 2 "user").item, (value 0 "port").item] ∧
      ssh.contents.render = ssh'.contents.render := by
  intro vim packages value components one one' ssh ssh'
  have stored (n rules first second) : (packages n rules first second).Reachable :=
    PackageSet.Reachable.merge (PackageSet.Reachable.merge (s := ⟨_⟩)
      (.empty rules .name .nameArch none {} n) first) second
  have bucket (n rules first second) : (packages n rules first second).packages.bucket = .name :=
    rfl
  have grouped (n rules first second) : (components n rules first second).Reachable :=
    .mergeResource _ second _ (.mergeResource _ first _ (.empty rules .nameArchContext none {} n))
  have others (n rules first second) {name : String} (ne : name ≠ "ssh") :
      (components n rules first second).itemsAt .active name = [] := by
    have empty : ComponentSet.Reachable { table := .withBuckets n, rules } :=
      .empty rules .nameArchContext none {} n
    have merged := empty.mergeResource "ssh" first ⟨4⟩
    refine (ComponentSet.itemsAt_mergeResource_of_ne merged.wellFormed ne second _ _).trans ?_
    refine (ComponentSet.itemsAt_mergeResource_of_ne empty.wellFormed ne first _ _).trans ?_
    apply ComponentSet.itemsAt_of_absent
    exact KeyedTable.Sound.find?_withBuckets n name
  have items : ssh.itemsAt .active "ssh" = [(value 2 "user").item, (value 0 "port").item] := by
    decide +kernel
  have items' : ssh'.itemsAt .active "ssh" = [(value 2 "user").item, (value 0 "port").item] := by
    decide +kernel
  have same (name : String) : (ssh.itemsAt .active name).Perm (ssh'.itemsAt .active name) := by
    by_cases only : name = "ssh"
    · rw [only, items, items']
    · rw [others _ _ _ _ only, others _ _ _ _ only]
  have untied (name : String) : Untied (ssh.itemsAt .active name) := by
    unfold Untied
    by_cases only : name = "ssh"
    · rw [only, items]
      decide
    · rw [others _ _ _ _ only]
      exact fun _ member => absurd member List.not_mem_nil
  have untied' : Untied (one.packages.items .active) := by
    unfold Untied
    decide +kernel
  obtain ⟨tables, sets⟩ := contents_of_same_items (T := Package)
  obtain ⟨-, -, one_text⟩ := tables one.packages one'.packages (stored _ _ _ _) (stored _ _ _ _)
    ((bucket _ _ _ _).trans (bucket _ _ _ _).symm)
  obtain ⟨-, -, ssh_text⟩ := sets ssh ssh' (grouped _ _ _ _) (grouped _ _ _ _)
  exact ⟨by decide +kernel, one_text (by decide +kernel) untied', items,
    ssh_text same untied⟩

/-- Two packages that differ in where they come from are digested in the order in which they were
merged, so that two sets of the same packages are told apart. -/
theorem contents_depend_on_merge_order :
    let vim (cell : Cell) (source : String) : Handle Package :=
      ⟨cell, cell + 1, { name := "vim", derivation := ⟨[source]⟩ }⟩
    let empty : PackageSet := ⟨{
      table := .withBuckets 1, rules := { keepAll := true }, bucket := .name, scope := .nameArch }⟩
    let merged (first second : Handle Package) : PackageSet :=
      (PackageSet.merge second (PackageSet.merge first empty ⟨4⟩).state ⟨4⟩).state
    let one := merged (vim 0 "a:1") (vim 2 "b:2")
    let other := merged (vim 2 "b:2") (vim 0 "a:1")
    one.Reachable ∧ other.Reachable ∧ one.packages.bucket = other.packages.bucket ∧
      (one.packages.items .active).Perm (other.packages.items .active) ∧
      one.packages.contents.render ≠ other.packages.contents.render := by
  intro vim empty merged one other
  have reachable (first second : Handle Package) : (merged first second).Reachable :=
    PackageSet.Reachable.merge (PackageSet.Reachable.merge (s := empty)
      (.empty { keepAll := true } .name .nameArch none {} 1) first) second
  have held : one.packages.items .active = [(vim 0 "a:1").item, (vim 2 "b:2").item] := by
    decide +kernel
  have held' : other.packages.items .active = [(vim 2 "b:2").item, (vim 0 "a:1").item] := by
    decide +kernel
  -- Both packages are of one rank, so that sorting leaves them as they are.
  have listed : one.packages.sortedItems .canonical = one.packages.items .active :=
    (reachable _ _).wellFormed.sortedItems_of_tied (a := (vim 0 "a:1").item)
      (by rw [OutputOrder.canonical, held]; decide)
  have listed' : other.packages.sortedItems .canonical = other.packages.items .active :=
    (reachable _ _).wellFormed.sortedItems_of_tied (a := (vim 0 "a:1").item)
      (by rw [OutputOrder.canonical, held']; decide)
  have texts : one.packages.contents.render ≠ other.packages.contents.render := by
    rw [ItemTable.contents_eq, ItemTable.contents_eq, listed, listed', held, held']
    decide +kernel
  exact ⟨reachable _ _, reachable _ _, rfl, by rw [held, held']; decide, texts⟩

end HostProfile
