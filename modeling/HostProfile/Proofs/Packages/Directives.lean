import HostProfile.Proofs.Chain.Pin
import HostProfile.Proofs.ItemTable.Chains
import HostProfile.Proofs.Packages.Reachable

/-!
# Packages with directives

The directives of packages are obeyed in sets and lists as they are in chains. A set obeys them as
far as its bucket keys reach: where packages are hashed by an architecture that their key leaves
out, two packages with one key may come to lie in two chains, and neither sees the other.
-/

namespace HostProfile

namespace PackageSet

/-- What becomes of a set by merges, whether they succeed or fail, and by other rules and
contexts. -/
def Merged (s s' : PackageSet) : Prop := s.packages.Merged s'.packages

end PackageSet

namespace PackageList

/-- The lists whose chains come from empty ones by any operations. -/
def Reachable (l : PackageList) : Prop := l.chain.Reachable

/-- What becomes of a list by merges, whether they succeed or fail, and by other rules and
contexts. -/
def Merged (l l' : PackageList) : Prop := l.chain.Merged l'.chain

end PackageList

/-! ## Entries with directives -/

/-- No entry has a malformed directive or one that only removes others, and an entry with a
directive is the only one with its key. -/
structure Chain.DirectivesAlone {T : Type} [Item T] (c : Chain T) : Prop where
  directed : ∀ x ∈ c.items, ∃ d, Item.directive x.item = .ok d ∧ d ≠ some .remove
  alone : ∀ x ∈ c.items, Item.mark x.item ≠ none → c.matching x.item = [x]

/-- Directive entries stand alone in every chain of packages, be it one of a set or that of a
list. -/
theorem directive_entries_alone :
    (∀ c : Chain Package, c.Reachable → c.DirectivesAlone) ∧
    (∀ s : PackageSet, s.Reachable → ∀ key c, s.packages.find? key = some c →
      c.DirectivesAlone) ∧
    (∀ l : PackageList, l.Reachable → l.chain.DirectivesAlone) := by
  have chain (c : Chain Package) (reachable : c.Reachable) : c.DirectivesAlone :=
    ⟨reachable.orderly.directed, fun _ => reachable.orderly.matching_eq⟩
  refine ⟨chain, ?_, fun l reachable => chain l.chain reachable⟩
  intro s reachable key c found
  have stored := (ItemTable.Reachable.chained reachable).reachable key
  rw [ItemTable.chainAt_of_some found] at stored
  exact chain c stored

theorem directive_entries_alone_of_added :
    let old : Handle Package := ⟨0, 1, { name := "vim", version := "1.0" }⟩
    let vim : Handle Package := ⟨2, 3, { name := "vim", version := "2.0", mark := some '+' }⟩
    let empty : Chain Package := { key := "vim", rules := { keepAll := true }, scope := .name }
    let chain := (Chain.merge none vim (Chain.merge none old empty ⟨4⟩).state ⟨4⟩).state
    let set := (PackageSet.merge vim (.empty { keepAll := true } .name false) ⟨4⟩).state
    let list := (PackageList.merge vim .empty ⟨4⟩).state
    chain.Reachable ∧ set.Reachable ∧ list.Reachable ∧
      set.packages.find? "vim" = some { empty with items := [vim] } ∧
      chain.matching vim.item = [vim] ∧ list.chain.matching vim.item = [vim] ∧
      Chain.DirectivesAlone { empty with items := [vim] } := by
  intro old vim empty chain set list
  obtain ⟨in_chain, in_set, in_list⟩ := directive_entries_alone
  have reachable : chain.Reachable :=
    .merge none vim ⟨4⟩ (.merge none old ⟨4⟩ (.empty "vim" .name trivial))
  have reachable_set : set.Reachable :=
    (PackageSet.reachable_empty { keepAll := true } .name false).merge vim
  have reachable_list : list.Reachable :=
    Chain.ReachableBy.merge none vim ⟨4⟩ (.empty "packages" .nameArch trivial)
  have found : set.packages.find? "vim" = some { empty with items := [vim] } := by decide +kernel
  exact ⟨reachable, reachable_set, reachable_list, found,
    (in_chain chain reachable).alone vim (by decide) (by decide),
    (in_list list reachable_list).alone vim (by decide) (by decide),
    in_set set reachable_set "vim" _ found⟩

/-! ## Pinned entries -/

namespace ItemTable

variable {T : Type} [Item T] [LawfulItem T] {t t' : ItemTable T} {p h : Handle T}

/-- In a whole table as in its chains, entries with directives exclude others with their key. -/
theorem Reachable.exclusive_handles (reachable : t.Reachable)
    (coarser : t.bucket.parts ≤ t.scope.parts) :
    t.handles.Pairwise fun x y => Chain.Exclusive t.scope x.item y.item := by
  apply reachable.wellFormed.pairwise_handles coarser
  · intro a b apart collides
    exact absurd (apart.symm.trans collides) Bool.false_ne_true
  · intro key
    rw [← reachable.wellFormed.scope_chainAt key]
    exact (reachable.chained.reachable key).orderly.exclusive

/-- A pinned entry of a table holds in its chain against every run of merges. -/
theorem Merged.holding (run : t.Merged t') (start : t.Reachable) (member : p ∈ t.handles)
    (pinned : Item.mark p.item = some '=') : (t'.chainAt (t'.keyOf p.item)).Holding p := by
  rw [start.wellFormed.mem_handles_iff] at member
  rw [keyOf, run.bucket_eq]
  exact (run.chainAt start _).holding (start.chained.reachable _) member pinned

/-- A definition with the key of a pinned entry is repelled by a table, if it has the bucket key of
the entry. -/
theorem repelled_of_holding (wf : t.WellFormed)
    (holding : (t.chainAt (t.keyOf p.item)).Holding p)
    (collides : t.scope.collides p.item h.item = true)
    (bucket : t.keyOf h.item = t.keyOf p.item) (one : ∀ x ∈ t.handles, x.cell = h.cell → x = h)
    (supply : Supply) :
    Chain.Repelled p h t.contexts (merge h t supply).result ∧
      (merge h t supply).state.find? = t.find? := by
  rw [← wf.scope_chainAt (t.keyOf p.item)] at collides
  obtain ⟨repelled, same⟩ := holding.repels t.contexts h supply collides fun x held =>
    one x (wf.mem_handles_of_mem held)
  rw [← bucket] at repelled same
  exact ⟨result_merge wf h supply ▸ repelled, find?_merge_of_state wf same⟩

end ItemTable

/-- Merging never overrides a pinned entry: it stays the only one with its key, and definitions
with this key are repelled and leave every chain as it was. In a set this holds of definitions with
the bucket key of the entry, and these are all that have its key, unless packages are hashed by an
architecture that their key leaves out. The handle in the cell of a definition is the
definition. -/
theorem pinned_entry_stays {T : Type} [Item T] [LawfulItem T] :
    (∀ (c c' : Chain T) (p : Handle T), c.Reachable → p ∈ c.items →
      Item.mark p.item = some '=' → c.Merged c' →
        c'.matching p.item = [p] ∧
        ∀ (contexts : Option ContextSet) (h : Handle T) (supply : Supply),
          c'.scope.collides p.item h.item = true → (∀ x ∈ c'.items, x.cell = h.cell → x = h) →
            Chain.Repelled p h contexts (Chain.merge contexts h c' supply).result ∧
              (Chain.merge contexts h c' supply).state = c') ∧
    (∀ (s s' : PackageSet) (p : Handle Package), s.Reachable → p ∈ s.packages.handles →
      p.item.mark = some '=' → s.Merged s' →
        let scope := s'.packages.scope
        let coarser := s'.packages.bucket.parts ≤ scope.parts
        (s'.packages.chainAt (s'.packages.keyOf p.item)).matching p.item = [p] ∧
        (coarser → s'.packages.handles.filter (fun x => scope.collides x.item p.item) = [p]) ∧
        ∀ (h : Handle Package) (supply : Supply), scope.collides p.item h.item = true →
          coarser ∨ s'.packages.keyOf h.item = s'.packages.keyOf p.item →
          (∀ x ∈ s'.packages.handles, x.cell = h.cell → x = h) →
            Chain.Repelled p h s'.packages.contexts (PackageSet.merge h s' supply).result ∧
              (PackageSet.merge h s' supply).state.packages.find? = s'.packages.find?) ∧
    (∀ (l l' : PackageList) (p : Handle Package), l.Reachable → p ∈ l.chain.items →
      p.item.mark = some '=' → l.Merged l' →
        l'.chain.matching p.item = [p] ∧
        ∀ (h : Handle Package) (supply : Supply), l'.chain.scope.collides p.item h.item = true →
          (∀ x ∈ l'.chain.items, x.cell = h.cell → x = h) →
            Chain.Repelled p h l'.contexts (PackageList.merge h l' supply).result ∧
              (PackageList.merge h l' supply).state = l') := by
  refine ⟨?_, ?_, ?_⟩
  · intro c c' p reachable member pinned run
    have holding := run.holding reachable member pinned
    exact ⟨holding.alone, holding.repels⟩
  · intro s s' p reachable member pinned run scope coarser
    have after := ItemTable.Merged.reachable run reachable
    have holding := ItemTable.Merged.holding run reachable member pinned
    have wf := after.wellFormed
    have still : p ∈ s'.packages.handles := by
      apply wf.mem_handles_of_mem
      have matched : p ∈ (s'.packages.chainAt (s'.packages.keyOf p.item)).matching p.item := by
        rw [holding.alone]
        exact List.mem_singleton_self p
      exact (List.mem_filter.mp matched).1
    refine ⟨holding.alone, fun is_coarser => ?_, ?_⟩
    · exact Chain.filter_collides_eq_singleton (after.exclusive_handles is_coarser) still
        (Chain.mark_ne_none_of_pinned pinned)
    · intro h supply collides reaches one
      have bucket : s'.packages.keyOf h.item = s'.packages.keyOf p.item := by
        rcases reaches with is_coarser | same
        · exact (KeyScope.key_eq_of_collides is_coarser collides).symm
        · exact same
      exact ItemTable.repelled_of_holding wf holding collides bucket one supply
  · intro l l' p reachable member pinned run
    have holding := Chain.Merged.holding run reachable member pinned
    refine ⟨holding.alone, ?_⟩
    intro h supply collides one
    obtain ⟨repelled, same⟩ := holding.repels l'.contexts h supply collides one
    refine ⟨repelled, ?_⟩
    show ({ l' with chain := _ } : PackageList) = l'
    rw [same]

theorem pinned_entry_stays_under_new_rules :
    let pinned : Handle Package := ⟨0, 1, { name := "vim", version := "1.0", mark := some '=' }⟩
    let other : Handle Package := ⟨2, 3, { name := "vim", version := "2.0", mark := some '+' }⟩
    let chain :=
      (Chain.merge none pinned { key := "vim", rules := .none, scope := .name } ⟨4⟩).state
    let set := (PackageSet.merge pinned (.empty .none .nameArch true) ⟨4⟩).state
    let list := (PackageList.merge pinned .empty ⟨4⟩).state
    let chain' := chain.setRules { keepAll := true }
    let set' := (PackageSet.merge other set ⟨4⟩).state
    let list' := list.setRules { replace := true }
    LawfulItem Package ∧ chain.Reachable ∧ pinned ∈ chain.items ∧ chain.Merged chain' ∧
      chain'.scope.collides pinned.item other.item = true ∧
      (∀ x ∈ chain'.items, x.cell = other.cell → x = other) ∧
      chain'.matching pinned.item = [pinned] ∧
      Chain.Repelled pinned other none (Chain.merge none other chain' ⟨4⟩).result ∧
      set.Reachable ∧ pinned ∈ set.packages.handles ∧ set.Merged set' ∧
      set'.packages.handles.filter
        (fun x => set'.packages.scope.collides x.item pinned.item) = [pinned] ∧
      list.Reachable ∧ pinned ∈ list.chain.items ∧ list.Merged list' ∧
      (PackageList.merge other list' ⟨4⟩).state = list' := by
  intro pinned other chain set list chain' set' list'
  obtain ⟨in_chain, in_set, in_list⟩ := pinned_entry_stays (T := Package)
  have reachable : chain.Reachable := .merge none pinned ⟨4⟩ (.empty "vim" .name trivial)
  have reachable_set : set.Reachable :=
    (PackageSet.reachable_empty .none .nameArch true).merge pinned
  have reachable_list : list.Reachable :=
    Chain.ReachableBy.merge none pinned ⟨4⟩ (.empty "packages" .nameArch trivial)
  have held : pinned ∈ chain.items := by decide
  have held_set : pinned ∈ set.packages.handles := by decide +kernel
  have held_list : pinned ∈ list.chain.items := by decide
  have run : chain.Merged chain' := .setRules { keepAll := true } .refl
  have run_set : set.Merged set' := ItemTable.Merged.merge other ⟨4⟩ .refl
  have run_list : list.Merged list' := Chain.Merged.setRules { replace := true } .refl
  have collides : chain'.scope.collides pinned.item other.item = true := by decide
  have one : ∀ x ∈ chain'.items, x.cell = other.cell → x = other := by decide
  have chain_holds := in_chain chain chain' pinned reachable held rfl run
  have set_holds := in_set set set' pinned reachable_set held_set rfl run_set
  have list_holds := in_list list list' pinned reachable_list held_list rfl run_list
  exact ⟨inferInstance, reachable, held, run, collides, one, chain_holds.1,
    (chain_holds.2 none other ⟨4⟩ collides one).1, reachable_set, held_set, run_set,
    set_holds.2.1 (by decide), reachable_list, held_list, run_list,
    (list_holds.2 other ⟨4⟩ (by decide) (by decide)).2⟩

/-- Where packages are hashed by an architecture that their key leaves out, a package joins a pinned
one with its key from another chain. -/
theorem pinned_entry_joined_across_buckets :
    let pinned : Handle Package :=
      ⟨0, 1, { name := "foo", arch := some "x86_64", version := "1.0", mark := some '=' }⟩
    let other : Handle Package := ⟨2, 3, { name := "foo", arch := some "i686", version := "2.0" }⟩
    let set := PackageSet.empty .none .name true
    let merged := PackageSet.merge pinned set ⟨4⟩
    let again := PackageSet.merge other merged.state merged.supply
    set.Reachable ∧ merged.result = .ok .added ∧ pinned ∈ merged.state.packages.handles ∧
      merged.state.packages.scope.collides pinned.item other.item = true ∧
      again.result = .ok .added ∧
      ¬ Chain.Repelled pinned other merged.state.packages.contexts again.result ∧
      again.state.packages.handles.filter
        (fun x => again.state.packages.scope.collides x.item pinned.item) = [other, pinned] := by
  intro pinned other set merged again
  have added : again.result = .ok .added := by decide +kernel
  refine ⟨PackageSet.reachable_empty .none .name true, by decide +kernel, by decide +kernel,
    by decide, added, ?_, by decide +kernel⟩
  rw [added]
  rintro (⟨e, failed⟩ | ⟨unchanged, -⟩)
  · exact absurd failed nofun
  · exact absurd unchanged (by decide)

end HostProfile
