import HostProfile.Proofs.Chain.Change
import HostProfile.Proofs.ComponentSet.Bulk
import HostProfile.Proofs.ComponentSet.Built
import HostProfile.Proofs.Config.Settings
import HostProfile.Proofs.ItemTable.Evaluation
import HostProfile.Proofs.Packages.Reachable

/-!
# Why a definition is refused

A definition that was built carries a directive that is one, if any, and a context that can be
evaluated, and a reachable table has a bucket for each key. So a merge of the definition fails in
two ways only: a pinned entry has its key, or an entry has its key and no rule decides between the
two.
-/

namespace HostProfile

variable {T : Type} [Item T]

/-! ## Built definitions -/

/-- The mark of the item stands for a directive, if it has one, and its context is an expression. -/
structure Item.Valid (a : T) : Prop where
  directive : ∃ d, directive a = .ok d
  context : ∃ e, Context.Expr.parse (context a) = .ok e

theorem Item.Valid.of_sameFields [LawfulItem T] {a b : T} (valid : Item.Valid a)
    (same : Item.sameFields a b = true) : Item.Valid b where
  directive := by
    have mark : Item.mark a = Item.mark b := Item.eq_of_sameFields same Item.mark
      LawfulItem.mark_withPriority LawfulItem.mark_withDerivation
    obtain ⟨d, is⟩ := valid.directive
    rw [Item.directive, mark] at is
    exact ⟨d, is⟩
  context := by
    have context : Item.context a = Item.context b := Item.eq_of_sameFields same Item.context
      LawfulItem.context_withPriority LawfulItem.context_withDerivation
    rw [← context]
    exact valid.context

/-- The context of a valid item has a priority in any contexts. -/
theorem Item.Valid.exists_priorityIn {a : T} (valid : Item.Valid a)
    (contexts : Option ContextSet) : ∃ priority, priorityIn contexts a = .ok priority :=
  exists_priorityIn_of_parses contexts fun _ => valid.context

namespace Package

/-- The package has the fields of one that was built. -/
def Built (p : Package) : Prop :=
  ∃ spec made, build spec = .ok made ∧ Item.sameFields made p = true

/-- A package is built when all checks pass. -/
theorem build_eq_ok_iff {spec made : Package} : build spec = .ok made ↔
    made = { spec with context := Text.trim spec.context } ∧
      Identifier.packageName.check spec.name = .ok () ∧
      spec.arch.forM Identifier.packageArch.check = .ok () ∧
      (spec.version.isEmpty = false → Identifier.packageVersion.check spec.version = .ok ()) ∧
      spec.release.forM Identifier.packageRelease.check = .ok () ∧
      spec.flags.forM Identifier.packageFlag.check = .ok () ∧
      (∃ d, Item.directive spec = .ok d) ∧
      ∃ e, Context.Expr.parse (Text.trim spec.context) = .ok e := by
  have directive : Item.directive { spec with context := Text.trim spec.context } =
      Item.directive spec := rfl
  rw [build]
  dsimp only
  rw [directive]
  cases Identifier.packageName.check spec.name with
  | error e => simp [bind, Except.bind]
  | ok _ =>
  cases spec.arch.forM Identifier.packageArch.check with
  | error e => simp [bind, Except.bind]
  | ok _ =>
  -- A version that is left empty is not checked.
  cases spec.version.isEmpty <;> cases Identifier.packageVersion.check spec.version
  all_goals
    cases spec.release.forM Identifier.packageRelease.check <;>
      cases spec.flags.forM Identifier.packageFlag.check <;>
        cases Item.directive spec <;>
          cases Context.Expr.parse (Text.trim spec.context) <;>
            simp [bind, Except.bind, pure, Except.pure, eq_comm]

theorem Built.valid {p : Package} (built : p.Built) : Item.Valid p := by
  obtain ⟨spec, made, ok, same⟩ := built
  obtain ⟨rfl, -, -, -, -, -, directive, parsed⟩ := build_eq_ok_iff.mp ok
  have valid : Item.Valid { spec with context := Text.trim spec.context } := ⟨directive, parsed⟩
  exact valid.of_sameFields same

end Package

theorem Resource.Built.valid {r : Resource} (built : r.Built) : Item.Valid r := by
  obtain ⟨spec, made, ok, same⟩ := built
  obtain ⟨rfl, -, -, -, parsed⟩ := Resource.build_eq_ok_iff.mp ok
  have valid : Item.Valid { spec with context := Text.trim spec.context } :=
    ⟨⟨none, Item.directive_eq_none_iff.mpr rfl⟩, parsed⟩
  exact valid.of_sameFields same

/-! ## Refusals -/

/-- Why a definition is refused among the stored ones: one of these has its key, and the rules keep
neither both nor the later one, or one of these has its key and is pinned. -/
inductive Refused (rules : MergeRules) (scope : KeyScope) (key : String)
    (stored : Handle T → Prop) (g : Handle T) : MergeError → Prop where
  | conflict {x : Handle T} (held : stored x) (collides : scope.collides x.item g.item = true)
      (one : rules.keepAll = false) (stay : rules.replace = false) :
      Refused rules scope key stored g
        (.conflict (Item.kind T) key (Item.describe x.item) (Item.describe g.item))
  | pinned {x : Handle T} (held : stored x) (collides : scope.collides x.item g.item = true)
      (mark : Item.mark x.item = some '=') :
      Refused rules scope key stored g
        (.pinned key (Item.describe x.item) (Item.describe g.item))

variable {rules : MergeRules} {scope : KeyScope} {key : String} {stored : Handle T → Prop}
  {e : MergeError} {supply : Supply}

theorem Refused.mono {stored' : Handle T → Prop} {g : Handle T}
    (refused : Refused rules scope key stored g e) (wider : ∀ x, stored x → stored' x) :
    Refused rules scope key stored' g e := by
  cases refused with
  | conflict held collides one stay => exact .conflict (wider _ held) collides one stay
  | pinned held collides mark => exact .pinned (wider _ held) collides mark

namespace Chain

variable {c : Chain T} {g h : Handle T} {contexts : Option ContextSet}

theorem mem_matching {x : Handle T} {item : T} (member : x ∈ c.matching item) :
    x ∈ c.items ∧ c.scope.collides x.item item = true :=
  List.mem_filter.mp member

/-- An entry that carries a directive has its mark. -/
theorem mark_of_carries {d : Directive} {x : Handle T} (carried : carries d x = true) :
    Item.mark x.item = some d.char := by
  cases directive : Item.directive x.item with
  | error e => simp [carries, directive] at carried
  | ok marked =>
      have is : marked = some d := by simpa [carries, directive] using carried
      exact Item.directive_eq_some_iff.mp (is ▸ directive)

/-- The rules refuse a definition only where they keep neither all definitions nor the last. -/
theorem refused_of_applyRules {first : Handle T}
    (failed : c.applyRules g (c.matchIndices g.item) = .error e)
    (head : (c.matching g.item).head? = some first) :
    Refused c.rules c.scope c.key (· ∈ c.items) g e := by
  obtain ⟨held, collides⟩ := mem_matching (List.mem_of_head? head)
  rw [applyRules_eq head] at failed
  split at failed
  · exact absurd failed nofun
  split at failed
  · exact absurd failed nofun
  next one =>
  split at failed
  · exact absurd failed nofun
  next stay =>
  have conflict (is : c.conflict first g = e) : Refused c.rules c.scope c.key (· ∈ c.items) g e :=
    is ▸ .conflict held collides (eq_false_of_ne_true one) (eq_false_of_ne_true stay)
  split at failed
  · split at failed
    · exact absurd failed nofun
    · split at failed
      · exact absurd failed nofun
      · exact conflict (Except.error.inj failed)
  · exact conflict (Except.error.inj failed)

theorem refused_of_decide (failed : c.decide g = .error e)
    (directive : ∃ d, Item.directive g.item = .ok d) :
    Refused c.rules c.scope c.key (· ∈ c.items) g e := by
  obtain ⟨directive, is⟩ := directive
  have accepted {change : Change} {items : List (Handle T)} (accepts : c.Accepts g change items) :
      Refused c.rules c.scope c.key (· ∈ c.items) g e :=
    absurd (accepts.decide_eq.symm.trans failed) nofun
  cases found : (c.matching g.item).find? (carries .pin) with
  | some pinned =>
      obtain ⟨held, collides⟩ := mem_matching (List.mem_of_find?_eq_some found)
      simp only [decide_eq, is, found] at failed
      obtain rfl := Except.error.inj failed
      exact .pinned held collides (mark_of_carries (List.find?_some found))
  | none =>
  cases directive with
  | some d => exact accepted (accepts_of_obey is found rfl)
  | none =>
  cases entries : c.matching g.item with
  | nil => exact accepted (.appended is (matching_eq_nil_iff.mp entries))
  | cons first rest =>
      have head : (c.matching g.item).head? = some first := by rw [entries]; rfl
      cases marked : carriesDirective first with
      | true => exact accepted (.outranked is found head marked)
      | false =>
          rw [Contest.decide_eq ⟨is, found, head, marked⟩] at failed
          exact refused_of_applyRules failed head

/-- A chain refuses a valid definition for an entry that it holds. -/
theorem refused_of_merge [LawfulItem T] (valid : Item.Valid h.item)
    (failed : (merge contexts h c supply).result = .error e) :
    Refused c.rules c.scope c.key (· ∈ c.items) (h.candidate contexts supply) e := by
  obtain ⟨priority, value⟩ := valid.exists_priorityIn contexts
  rw [merge_eq, value] at failed
  rw [Handle.candidate_eq value]
  split at failed
  · exact absurd failed nofun
  dsimp only at failed
  split at failed
  · exact absurd failed nofun
  rw [settle_eq] at failed
  cases decision : c.decide (h.atPriority priority supply).1 with
  | ok outcome =>
      rw [decision] at failed
      exact absurd failed nofun
  | error cause =>
      rw [decision] at failed
      obtain rfl := Except.error.inj failed
      apply refused_of_decide decision
      rw [Handle.item_atPriority, Item.directive_withPriority]
      exact valid.directive

end Chain

theorem ItemTable.refused_of_merge [LawfulItem T] {t : ItemTable T} {h : Handle T}
    (wf : t.WellFormed) (valid : Item.Valid h.item)
    (failed : (ItemTable.merge h t supply).result = .error e) :
    Refused t.rules t.scope (t.keyOf h.item) (· ∈ t.handles) (h.candidate t.contexts supply) e := by
  rw [result_merge wf] at failed
  have refused := Chain.refused_of_merge valid failed
  rw [wf.rules_chainAt, wf.scope_chainAt, key_chainAt] at refused
  exact refused.mono fun x held => wf.mem_handles_of_mem held

/-- A set refuses a valid resource for one that its component holds. -/
theorem ComponentSet.refused_of_mergeResource {s : ComponentSet} {name : String}
    {h : Handle Resource} (wf : s.WellFormed) (named : Component.checkName name = .ok ())
    (valid : Item.Valid h.item) (failed : (mergeResource name h s supply).result = .error e) :
    Refused s.rules s.scope h.item.name (fun x => (name, x) ∈ s.visible .all)
      (h.candidate (s.componentAt name).resources.contexts supply) e := by
  rw [mergeResource_of_ok named,
    (upsert_sound wf name (Component.merge h) (fun _ _ => rfl) supply).1] at failed
  have fits := wf.fits_componentAt name
  have refused := ItemTable.refused_of_merge fits.wellFormed valid failed
  rw [fits.rules, fits.scope, ItemTable.keyOf, fits.bucket] at refused
  refine refused.mono fun x held => ?_
  cases found : s.find? name with
  | none =>
      rw [fits.wellFormed.mem_handles_iff, ItemTable.items_chainAt, componentAt_of_none found,
        find?_emptyComponent] at held
      exact absurd held List.not_mem_nil
  | some c =>
      rw [componentAt_of_some found] at held
      obtain ⟨member, rfl⟩ := wf.sound.find?_eq_some_iff.mp found
      rw [visible_all]
      exact List.mem_flatMap_of_mem member (List.mem_map_of_mem held)

/-- A merge of a built definition succeeds, or the definition is refused for a stored one with its
key: for a pinned one, or because the rules keep neither all definitions nor the last. It does so in
every reachable table, set and list of packages, and set of components, whatever the contexts and
whatever priority and derivation the definition was given since. -/
theorem refused_of_merge_of_built :
    (∀ (t : ItemTable Package) (h : Handle Package) (supply : Supply) (e : MergeError),
      t.Reachable → h.item.Built → (ItemTable.merge h t supply).result = .error e →
        Refused t.rules t.scope (t.keyOf h.item) (· ∈ t.handles) (h.candidate t.contexts supply)
          e) ∧
    (∀ (t : ItemTable Resource) (h : Handle Resource) (supply : Supply) (e : MergeError),
      t.Reachable → h.item.Built → (ItemTable.merge h t supply).result = .error e →
        Refused t.rules t.scope (t.keyOf h.item) (· ∈ t.handles) (h.candidate t.contexts supply)
          e) ∧
    (∀ (s : PackageSet) (h : Handle Package) (supply : Supply) (e : MergeError),
      s.Reachable → h.item.Built → (PackageSet.merge h s supply).result = .error e →
        Refused s.packages.rules s.packages.scope (s.packages.keyOf h.item)
          (· ∈ s.packages.handles) (h.candidate s.packages.contexts supply) e) ∧
    (∀ (l : PackageList) (h : Handle Package) (supply : Supply) (e : MergeError),
      h.item.Built → (PackageList.merge h l supply).result = .error e →
        Refused l.chain.rules l.chain.scope l.chain.key (· ∈ l.chain.items)
          (h.candidate l.contexts supply) e) ∧
    ∀ (s : ComponentSet) (name : String) (h : Handle Resource) (supply : Supply) (e : MergeError),
      s.Reachable → Component.checkName name = .ok () → h.item.Built →
        (ComponentSet.mergeResource name h s supply).result = .error e →
          Refused s.rules s.scope h.item.name (fun x => (name, x) ∈ s.visible .all)
            (h.candidate (s.componentAt name).resources.contexts supply) e := by
  refine ⟨?_, ?_, ?_, ?_, ?_⟩
  · intro t h supply e reachable built failed
    exact t.refused_of_merge reachable.wellFormed built.valid failed
  · intro t h supply e reachable built failed
    exact t.refused_of_merge reachable.wellFormed built.valid failed
  · intro s h supply e reachable built failed
    exact s.packages.refused_of_merge reachable.wellFormed built.valid failed
  · intro l h supply e built failed
    exact Chain.refused_of_merge built.valid failed
  · intro s name h supply e reachable named built failed
    exact s.refused_of_mergeResource reachable.wellFormed named built.valid failed

/-- A package is refused for a pinned one, and without rules packages and resources are for any that
have their key. -/
theorem refused_of_merge_of_other_version :
    let vim (cell : Cell) (mark : Option Char) (version : String) : Handle Package :=
      ⟨cell, cell + 1, { name := "vim", mark, version }⟩
    let port (cell : Cell) (value : String) : Handle Resource :=
      ⟨cell, cell + 1, { name := "port", value }⟩
    let pinned : PackageSet :=
      (PackageSet.merge (vim 0 (some '=') "1.0") (.empty .standard) ⟨4⟩).state
    let list : PackageList := (PackageList.merge (vim 0 none "1.0") (.empty .none) ⟨4⟩).state
    let set : ComponentSet := (ComponentSet.mergeResource "ssh" (port 0 "22")
      { table := .withBuckets 1, rules := .none } ⟨4⟩).state
    (pinned.Reachable ∧ set.Reachable ∧ (vim 2 none "2.0").item.Built ∧ (port 2 "80").item.Built) ∧
      (∃ e, (PackageSet.merge (vim 2 none "2.0") pinned ⟨4⟩).result = .error e ∧
        Refused .standard .nameArch "vim" (· ∈ pinned.packages.handles) (vim 2 none "2.0") e) ∧
      (∃ e, (PackageList.merge (vim 2 none "2.0") list ⟨4⟩).result = .error e ∧
        Refused .none .nameArch "packages" (· ∈ list.chain.items) (vim 2 none "2.0") e) ∧
      ∃ e, (ComponentSet.mergeResource "ssh" (port 2 "80") set ⟨4⟩).result = .error e ∧
        Refused .none .nameArchContext "port" (fun x => ("ssh", x) ∈ set.visible .all)
          (port 2 "80") e := by
  intro vim port pinned list set
  have vim_built : (vim 2 none "2.0").item.Built :=
    ⟨_, _, show Package.build (vim 2 none "2.0").item = .ok (vim 2 none "2.0").item by
      decide +kernel, by decide⟩
  have port_built : (port 2 "80").item.Built :=
    .of_build (show Resource.build (port 2 "80").item = .ok (port 2 "80").item by decide +kernel)
  have pinned_reachable : pinned.Reachable :=
    (PackageSet.reachable_empty .standard .nameArch false).merge _
  have set_reachable : set.Reachable :=
    .mergeResource "ssh" (port 0 "22") ⟨4⟩ (.empty .none .nameArchContext none {} 1)
  obtain ⟨-, -, of_set, of_list, of_component⟩ := refused_of_merge_of_built
  refine ⟨⟨pinned_reachable, set_reachable, vim_built, port_built⟩, ?_, ?_, ?_⟩
  · have failed : (PackageSet.merge (vim 2 none "2.0") pinned ⟨4⟩).result = .error (.pinned "vim"
        "=vim-1.0 (from <unknown>, priority 0)" "vim-2.0 (from <unknown>, priority 0)") := by
      decide +kernel
    exact ⟨_, failed, of_set pinned _ ⟨4⟩ _ pinned_reachable vim_built failed⟩
  · have failed : (PackageList.merge (vim 2 none "2.0") list ⟨4⟩).result = .error (.conflict
        "package" "packages" "vim-1.0 (from <unknown>, priority 0)"
        "vim-2.0 (from <unknown>, priority 0)") := by
      decide +kernel
    exact ⟨_, failed, of_list list _ ⟨4⟩ _ vim_built failed⟩
  · have failed : (ComponentSet.mergeResource "ssh" (port 2 "80") set ⟨4⟩).result = .error
        (.conflict "resource" "port" "port=22 (from <unknown>, priority 0)"
          "port=80 (from <unknown>, priority 0)") := by
      decide +kernel
    have unset : (set.componentAt "ssh").resources.contexts = none := by decide +kernel
    have refused := of_component set "ssh" (port 2 "80") ⟨4⟩ _ set_reachable (by decide +kernel)
      port_built failed
    rw [unset] at refused
    exact ⟨_, failed, refused⟩

end HostProfile
