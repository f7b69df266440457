import HostProfile.Proofs.Repeat

/-!
# Definitions that come back

A container that was evaluated again holds copies of what was merged into it. A definition that is
merged once more is known by its handle, or else as a copy; but copies are looked for only when the
definition has another priority in the contexts than its own. When the contexts give it its own
priority back, the chain has let go of the handle and does not look for the copy, and the rules
decide as about any other definition with the same fields. `Recognizes` is what is left.
-/

namespace HostProfile

/-- What `s` becomes when it is evaluated in any number of contexts, each time with success. -/
inductive Reevaluated {σ : Type} (reevaluate : ContextSet → Action σ Nat) (s : σ) : σ → Prop where
  | refl : Reevaluated reevaluate s s
  | step {s' : σ} (set : ContextSet) (supply : Supply) (n : Nat) :
      Reevaluated reevaluate s s' → (reevaluate set s' supply).result = .ok n →
      Reevaluated reevaluate s (reevaluate set s' supply).state

namespace Chain

variable {T : Type} [Item T] {c : Chain T} {h : Handle T} {contexts : Option ContextSet}
  {supply : Supply}

/-- The chain has the definition, or a copy of it with the priority that it has in the contexts. -/
def Holds (contexts : Option ContextSet) (h : Handle T) (c : Chain T) : Prop :=
  h ∈ c.items ∨
    ∃ x ∈ c.items, h.Kin x ∧ priorityIn contexts h.item = .ok (Item.priority x.item)

/-- The chain has no use for another copy of a definition: no entry in its way is pinned, and the
definition is a fallback, or it has no directive and the first entry with its key was put there by
one, or has a higher priority where nothing but priorities decides. -/
def Ignores (c : Chain T) (h : Handle T) : Prop :=
  c.Unpinned h ∧ (Item.directive h.item = .ok (some .fallback) ∨
    Item.directive h.item = .ok none ∧ ∃ first, (c.matching h.item).head? = some first ∧
      (carriesDirective first = true ∨
        c.rules.squashIdentical = false ∧ c.rules.keepAll = false ∧ c.rules.replace = false ∧
          c.rules.usePriority = true ∧ Item.priority h.item < Item.priority first.item))

/-- The chain has the handle, or the definition has another priority in the contexts than its own,
or the chain has no use for it. -/
def Recognizes (contexts : Option ContextSet) (h : Handle T) (c : Chain T) : Prop :=
  c.contains h = true ∨ ∃ priority, priorityIn contexts h.item = .ok priority ∧
    (priority ≠ Item.priority h.item ∨ c.Ignores h)

variable [LawfulItem T]

theorem identical_of_kin {x : Handle T} (kin : h.Kin x) : c.identical h x = true := by
  have fields : Item.sameFields x.item h.item = true := kin.symm.2
  exact Bool.and_eq_true_iff.mpr ⟨KeyScope.collides_of_sameFields c.scope fields, fields⟩

/-- A chain that took in a definition holds it. -/
theorem holds_merge {change : Change} (ok : (merge contexts h c supply).result = .ok change)
    (put : change = .added ∨ change = .replaced) :
    (merge contexts h c supply).state.Holds contexts h := by
  rcases cases_of_merge_eq_ok ok with ⟨rfl, -⟩ | ⟨-, priority, items, value, accepts, after⟩
  · exact absurd put (by decide)
  · rw [after]
    refine .inr ⟨_, accepts.mem_self put, (h.version_atPriority priority supply).kin, ?_⟩
    rw [value]
    simp

/-- Where a copy is stored, the definition is dropped in no other case than those of `Ignores`. -/
theorem accepts_unchanged_iff {x : Handle T} (member : x ∈ c.items) (kin : h.Kin x) :
    c.Accepts h .unchanged c.items ↔ c.Ignores h := by
  have twin : c.items.any (c.identical h) = true :=
    List.any_eq_true.mpr ⟨x, member, identical_of_kin kin⟩
  have clash : c.items.any (c.collides h.item) = true :=
    List.any_eq_true.mpr ⟨x, member, (Bool.and_eq_true_iff.mp (identical_of_kin kin)).1⟩
  constructor
  · intro accepts
    cases accepts with
    | enforced _ _ _ result => exact absurd result replaceAll_ne_unchanged
    | vain _ free => exact absurd (clash.symm.trans free) nofun
    | dispensable directive unpinned => exact ⟨unpinned, .inl directive⟩
    | outranked plain unpinned head marked =>
        exact ⟨unpinned, .inr ⟨plain, _, head, .inl marked⟩⟩
    | displaced _ _ _ _ result => exact absurd result replaceAll_ne_unchanged
    | lost contest unsquashed one stay rule lower =>
        rw [twin, Bool.and_true] at unsquashed
        exact ⟨contest.unpinned, .inr ⟨contest.plain, _, contest.head,
          .inr ⟨unsquashed, one, stay, rule, lower⟩⟩⟩
  · rintro ⟨unpinned, directive | ⟨plain, first, head, reason⟩⟩
    · exact .dispensable directive unpinned clash
    · cases marked : carriesDirective first with
      | true => exact .outranked plain unpinned head marked
      | false =>
          rcases reason with absurdly | ⟨unsquashed, one, stay, rule, lower⟩
          · exact absurd (marked.symm.trans absurdly) nofun
          · exact .lost ⟨plain, unpinned, head, marked⟩ (by rw [unsquashed, Bool.false_and]) one
              stay rule lower

/-- A definition that the chain holds changes nothing exactly when it is recognized. -/
theorem merge_eq_unchanged_iff_of_holds (holds : c.Holds contexts h) :
    (merge contexts h c supply).result = .ok .unchanged ↔ c.Recognizes contexts h := by
  rw [merge_eq_unchanged_iff]
  rcases holds with member | ⟨x, member, kin, value⟩
  · exact iff_of_true (.inl (contains_of_mem member)) (.inl (contains_of_mem member))
  refine or_congr_right (exists_congr fun priority => and_congr_right fun is => ?_)
  obtain rfl : priority = Item.priority x.item := Except.ok.inj (is.symm.trans value)
  -- The copy is looked for only when the definition gets another priority than its own.
  by_cases own : Item.priority x.item = Item.priority h.item
  · rw [own, Handle.atPriority_self, accepts_unchanged_iff member kin]
    exact or_congr_left ⟨fun both => absurd rfl both.1, fun ne => absurd rfl ne⟩
  · have copied : c.containsCopy (h.atPriority (Item.priority x.item) supply).1 = true := by
      refine List.any_eq_true.mpr ⟨x, member, Handle.Kin.copies_iff.mpr ⟨?_, by simp⟩⟩
      exact kin.symm.trans (h.version_atPriority _ supply).kin
    exact iff_of_true (.inl ⟨own, copied⟩) (.inl own)

end Chain

namespace Reevaluated

/-- What every successful evaluation keeps, all of them keep. -/
theorem keeps {σ : Type} {reevaluate : ContextSet → Action σ Nat} {s s' : σ} {P : σ → Prop}
    (start : P s)
    (step : ∀ s set supply n, P s → (reevaluate set s supply).result = .ok n →
      P (reevaluate set s supply).state) (run : Reevaluated reevaluate s s') : P s' := by
  induction run with
  | refl => exact start
  | step set supply n _ ok before => exact step _ set supply n before ok

theorem packages {s s' : PackageSet} (run : Reevaluated PackageSet.reevaluate s s') :
    Reevaluated ItemTable.reevaluate s.packages s'.packages := by
  induction run with
  | refl => exact .refl
  | step set supply n _ ok before => exact .step set supply n before ok

end Reevaluated

namespace ItemTable

variable {T : Type} [Item T] {t : ItemTable T} {h : Handle T} {supply : Supply}

/-- The table has the definition under its bucket key, or a copy of it with the priority that it
has in the contexts. -/
def Holds (t : ItemTable T) (h : Handle T) : Prop :=
  (t.chainAt (t.keyOf h.item)).Holds t.contexts h

/-- The chain under its bucket key recognizes the definition in the contexts of the table. -/
def Recognizes (t : ItemTable T) (h : Handle T) : Prop :=
  (t.chainAt (t.keyOf h.item)).Recognizes t.contexts h

variable [LawfulItem T]

/-- Whichever way the definition is held, a copy of it lies in the chain of its bucket key. -/
theorem Holds.exists_kin (holds : t.Holds h) :
    ∃ c, t.find? (t.keyOf h.item) = some c ∧ ∃ x ∈ c.items, h.Kin x := by
  have kin : ∃ x ∈ (t.chainAt (t.keyOf h.item)).items, h.Kin x := by
    rcases holds with member | ⟨x, member, kin, -⟩
    · exact ⟨h, member, Handle.Version.kin (.inl rfl)⟩
    · exact ⟨x, member, kin⟩
  cases found : t.find? (t.keyOf h.item) with
  | none =>
      rw [chainAt_of_none found] at kin
      obtain ⟨x, member, -⟩ := kin
      exact absurd member List.not_mem_nil
  | some c =>
      rw [chainAt_of_some found] at kin
      exact ⟨c, rfl, kin⟩

theorem holds_merge (wf : t.WellFormed) {change : Change}
    (ok : (merge h t supply).result = .ok change) (put : change = .added ∨ change = .replaced) :
    (merge h t supply).state.Holds h := by
  have chain := chainAt_merge wf h supply (t.keyOf h.item)
  rw [if_pos rfl] at chain
  rw [result_merge wf] at ok
  have held := Chain.holds_merge ok put
  rwa [← chain] at held

theorem Holds.reevaluate {set : ContextSet} {n : Nat} (holds : t.Holds h)
    (ok : (ItemTable.reevaluate set t supply).result = .ok n) :
    (ItemTable.reevaluate set t supply).state.Holds h := by
  obtain ⟨contexts, related⟩ := reevaluate_of_ok ok
  obtain ⟨-, -, bucket, -⟩ := state_reevaluate set t supply
  obtain ⟨c, found, x, member, kin⟩ := holds.exists_kin
  have rel := related (t.keyOf h.item)
  rw [found] at rel
  obtain ⟨c', found', items, rfl, evaluated⟩ := KeyedTable.exists_of_some_rel rel
  obtain ⟨y, member', priority, left, value, rfl⟩ := Chain.exists_of_forall₂ evaluated member
  have key : (ItemTable.reevaluate set t supply).state.keyOf h.item = t.keyOf h.item := by
    rw [keyOf, bucket, keyOf]
  rw [Holds, key, chainAt_of_some found', contexts]
  refine .inr ⟨_, member', kin.trans (x.version_atPriority priority left).kin, ?_⟩
  rw [priorityIn_some, kin.evaluateItem_eq, value]
  simp

/-- A table that holds a definition is not changed by it exactly when it recognizes it. -/
theorem merge_unchanged_iff (wf : t.WellFormed) (holds : t.Holds h) (supply : Supply) :
    (merge h t supply).result = .ok .unchanged ∧ (merge h t supply).state.find? = t.find? ↔
      t.Recognizes h := by
  rw [Recognizes, ← Chain.merge_eq_unchanged_iff_of_holds holds, result_merge wf]
  apply and_iff_left_of_imp
  intro unchanged
  funext key
  exact find?_merge_of_unchanged wf ((result_merge wf h supply).trans unchanged) key

theorem holds_of_reevaluated {t' : ItemTable T} (wf : t.WellFormed) (holds : t.Holds h)
    (run : Reevaluated reevaluate t t') : t'.WellFormed ∧ t'.Holds h :=
  run.keeps (P := fun t => t.WellFormed ∧ t.Holds h) ⟨wf, holds⟩
    fun _ set supply _ before ok => ⟨before.1.reevaluate set supply, before.2.reevaluate ok⟩

end ItemTable

theorem PackageSet.holds_merge {s : PackageSet} {h : Handle Package} {supply : Supply}
    {change : Change} (reachable : s.Reachable) (ok : (merge h s supply).result = .ok change)
    (put : change = .added ∨ change = .replaced) : (merge h s supply).state.packages.Holds h :=
  ItemTable.holds_merge reachable.wellFormed ok put

namespace ComponentSet

variable {s s' : ComponentSet} {name : String} {h : Handle Resource}

theorem holds_mergeResource (wf : s.WellFormed) {supply : Supply} {change : Change}
    (ok : (mergeResource name h s supply).result = .ok change)
    (put : change = .added ∨ change = .replaced) :
    ((mergeResource name h s supply).state.componentAt name).resources.Holds h := by
  obtain ⟨merged, held⟩ := mergeResource_of_eq_ok wf ok
  rw [held]
  exact ItemTable.holds_merge (wf.fits_componentAt name).wellFormed merged put

/-- A component that holds a resource still does after an evaluation. -/
theorem holds_reevaluate {set : ContextSet} {supply : Supply} {n : Nat}
    (holds : (s.componentAt name).resources.Holds h)
    (ok : (reevaluate set s supply).result = .ok n) :
    ((reevaluate set s supply).state.componentAt name).resources.Holds h := by
  cases found : s.find? name with
  | none =>
      obtain ⟨c, held, -⟩ := holds.exists_kin
      rw [componentAt_of_none found, find?_emptyComponent] at held
      exact absurd held nofun
  | some c =>
      have rel := (reevaluate_of_ok ok).2 name
      rw [found] at rel
      obtain ⟨c', found', left, m, evaluated, rfl⟩ := KeyedTable.exists_of_some_rel rel
      rw [componentAt_of_some found] at holds
      rw [componentAt_of_some found']
      exact holds.reevaluate evaluated

theorem holds_of_reevaluated (wf : s.WellFormed) (holds : (s.componentAt name).resources.Holds h)
    (run : Reevaluated reevaluate s s') :
    s'.WellFormed ∧ (s'.componentAt name).resources.Holds h :=
  run.keeps (P := fun s => s.WellFormed ∧ (s.componentAt name).resources.Holds h) ⟨wf, holds⟩
    fun _ set supply _ before ok => ⟨before.1.reevaluate set supply, holds_reevaluate before.2 ok⟩

/-- A component that holds a resource is not changed by it exactly when it recognizes it. -/
theorem mergeResource_unchanged_iff (wf : s.WellFormed)
    (valid : Component.checkName name = .ok ()) (holds : (s.componentAt name).resources.Holds h)
    (supply : Supply) :
    (mergeResource name h s supply).result = .ok .unchanged ∧
        (mergeResource name h s supply).state.chain? = s.chain? ↔
      (s.componentAt name).resources.Recognizes h := by
  have inside := (wf.fits_componentAt name).wellFormed
  rw [ItemTable.Recognizes, ← Chain.merge_eq_unchanged_iff_of_holds holds,
    ← ItemTable.result_merge inside h supply]
  have result : (mergeResource name h s supply).result =
      (ItemTable.merge h (s.componentAt name).resources supply).result := by
    rw [mergeResource_of_ok valid]
    exact (upsert_sound wf name _ (fun _ _ => rfl) supply).1
  rw [← result]
  exact and_iff_left_of_imp fun unchanged => chain?_mergeResource_of_unchanged wf unchanged

end ComponentSet

/-- After evaluations in any contexts, a definition that had been merged is merged again without
effect exactly when it is recognized: in a table, in a set of packages, and in the component of a
set. -/
theorem remerge_unchanged_iff {T : Type} [Item T] [LawfulItem T] :
    (∀ (h : Handle T) (t t' : ItemTable T), t.Reachable → t.Holds h →
      Reevaluated ItemTable.reevaluate t t' → ∀ supply,
        ((ItemTable.merge h t' supply).result = .ok .unchanged ∧
          (ItemTable.merge h t' supply).state.find? = t'.find? ↔ t'.Recognizes h)) ∧
    (∀ (h : Handle Package) (s s' : PackageSet), s.Reachable → s.packages.Holds h →
      Reevaluated PackageSet.reevaluate s s' → ∀ supply,
        ((PackageSet.merge h s' supply).result = .ok .unchanged ∧
          (PackageSet.merge h s' supply).state.packages.find? = s'.packages.find? ↔
            s'.packages.Recognizes h)) ∧
    (∀ (name : String) (h : Handle Resource) (s s' : ComponentSet), s.Reachable →
      Component.checkName name = .ok () → (s.componentAt name).resources.Holds h →
      Reevaluated ComponentSet.reevaluate s s' → ∀ supply,
        ((ComponentSet.mergeResource name h s' supply).result = .ok .unchanged ∧
          (ComponentSet.mergeResource name h s' supply).state.chain? = s'.chain? ↔
            (s'.componentAt name).resources.Recognizes h)) := by
  refine ⟨?_, ?_, ?_⟩
  · intro h t t' reachable holds run supply
    obtain ⟨wf, held⟩ := ItemTable.holds_of_reevaluated reachable.wellFormed holds run
    exact ItemTable.merge_unchanged_iff wf held supply
  · intro h s s' reachable holds run supply
    obtain ⟨wf, held⟩ := ItemTable.holds_of_reevaluated reachable.wellFormed holds run.packages
    exact ItemTable.merge_unchanged_iff wf held supply
  · intro name h s s' reachable valid holds run supply
    obtain ⟨wf, held⟩ := ComponentSet.holds_of_reevaluated reachable.wellFormed holds run
    exact ComponentSet.mergeResource_unchanged_iff wf valid held supply

/-- A definition comes into conflict with its own copy when contexts that had changed its priority
give it back. -/
theorem remerge_conflicts_with_own_copy :
    let server : ContextSet := ⟨⟨[("server", 1)], by decide⟩⟩
    let vim : Handle Package := ⟨0, 1, { name := "vim", version := "1.0", context := "!server" }⟩
    let set : PackageSet := ⟨{
      table := .withBuckets 1, rules := { usePriority := true }, bucket := .name,
      scope := .nameArch, contexts := some server }⟩
    let merged := PackageSet.merge vim set ⟨2⟩
    let evaluated := PackageSet.reevaluate ∅ merged.state merged.supply
    let again := PackageSet.merge vim evaluated.state evaluated.supply
    set.Reachable ∧ merged.result = .ok .added ∧ merged.state.packages.Holds vim ∧
      evaluated.result = .ok 1 ∧
      Reevaluated PackageSet.reevaluate merged.state evaluated.state ∧
      again.result = .error (.conflict "package" "vim"
        "vim-1.0 [!server] (from <unknown>, priority 0)"
        "vim-1.0 [!server] (from <unknown>, priority 0)") := by
  intro server vim set merged evaluated again
  have reachable : set.Reachable := .empty _ .name .nameArch (some server) {} 1
  have added : merged.result = .ok .added := by decide +kernel
  have changed : evaluated.result = .ok 1 := by decide +kernel
  have conflict : again.result = .error (.conflict "package" "vim"
      "vim-1.0 [!server] (from <unknown>, priority 0)"
      "vim-1.0 [!server] (from <unknown>, priority 0)") := by decide +kernel
  have holds : merged.state.packages.Holds vim :=
    PackageSet.holds_merge reachable added (.inl rfl)
  have run : Reevaluated PackageSet.reevaluate merged.state evaluated.state :=
    @Reevaluated.step _ PackageSet.reevaluate merged.state merged.state ∅ merged.supply 1 .refl
      changed
  exact ⟨reachable, added, holds, changed, run, conflict⟩

theorem remerge_unchanged_iff_of_returned_priority :
    let server : ContextSet := ⟨⟨[("server", 1)], by decide⟩⟩
    let vim : Handle Package := ⟨0, 1, { name := "vim", context := "!server" }⟩
    let port : Handle Resource := ⟨2, 3, { name := "port", value := "22" }⟩
    let set : PackageSet := ⟨{
      table := .withBuckets 1, rules := .standard, bucket := .name, scope := .nameArch,
      contexts := some server }⟩
    let components : ComponentSet := { table := .withBuckets 1 }
    let merged := PackageSet.merge vim set ⟨4⟩
    let evaluated := PackageSet.reevaluate ∅ merged.state merged.supply
    let configured := ComponentSet.mergeResource "ssh" port components ⟨4⟩
    LawfulItem Package ∧ merged.state.Reachable ∧ merged.state.packages.Holds vim ∧
      Reevaluated PackageSet.reevaluate merged.state evaluated.state ∧
      ¬ evaluated.state.packages.Recognizes vim ∧
      configured.state.Reachable ∧ (configured.state.componentAt "ssh").resources.Holds port ∧
      (configured.state.componentAt "ssh").resources.Recognizes port := by
  intro server vim port set components merged evaluated configured
  obtain ⟨in_table, in_set, in_component⟩ := remerge_unchanged_iff (T := Package)
  have start : set.Reachable := .empty .standard .name .nameArch (some server) {} 1
  have start' : components.Reachable := .empty .standard .nameArchContext none {} 1
  have reachable : merged.state.Reachable := start.merge vim
  have reachable' : configured.state.Reachable := .mergeResource "ssh" port ⟨4⟩ start'
  have added : merged.result = .ok .added := by decide +kernel
  have added' : configured.result = .ok .added := by decide +kernel
  have holds : merged.state.packages.Holds vim := PackageSet.holds_merge start added (.inl rfl)
  have holds' : (configured.state.componentAt "ssh").resources.Holds port :=
    @ComponentSet.holds_mergeResource components "ssh" port start'.wellFormed ⟨4⟩ .added added'
      (.inl rfl)
  have changed : evaluated.result = .ok 1 := by decide +kernel
  have run : Reevaluated PackageSet.reevaluate merged.state evaluated.state :=
    @Reevaluated.step _ PackageSet.reevaluate merged.state merged.state ∅ merged.supply 1 .refl
      changed
  have replaced : (PackageSet.merge vim evaluated.state evaluated.supply).result =
      .ok .replaced := by decide +kernel
  have unchanged : (ComponentSet.mergeResource "ssh" port configured.state ⟨4⟩).result =
      .ok .unchanged := by decide +kernel
  refine ⟨inferInstance, reachable, holds, run, fun recognizes => ?_, reachable', holds', ?_⟩
  · have packages := (in_set vim merged.state evaluated.state reachable holds run
      evaluated.supply).mpr recognizes
    rw [replaced] at packages
    exact absurd packages.1 (by decide)
  · have valid : Component.checkName "ssh" = .ok () := by decide
    refine (in_component "ssh" port configured.state configured.state reachable' valid holds'
      .refl ⟨4⟩).mp ⟨unchanged, ?_⟩
    exact ComponentSet.chain?_mergeResource_of_unchanged reachable'.wellFormed unchanged

end HostProfile
