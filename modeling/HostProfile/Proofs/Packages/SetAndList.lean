import HostProfile.PackageList
import HostProfile.Proofs.Chain.Bucket
import HostProfile.Proofs.ItemTable.Reachable
import HostProfile.Proofs.KeyedTable.Listing

/-!
# Sets and lists of packages

A set is given the same packages as a list, and both answer alike. Under each bucket key the set
holds what the list holds with this bucket key, in the order of the list. Each of the two evaluates
a package on its own, so that they may hold two copies of it; apart from the cells of these copies
the buckets of the set and the list never differ.
-/

namespace HostProfile

/-- A set and a list of packages. -/
structure PackagePair where
  set : PackageSet
  list : PackageList

namespace PackagePair

/-- Something done to both. -/
inductive Step where
  | merge (h : Handle Package)
  | setRules (rules : MergeRules)

/-- The packages that the steps merge. -/
def merged (steps : List Step) : List (Handle Package) :=
  steps.filterMap fun
    | .merge h => some h
    | .setRules _ => none

/-- A set and a list that hold nothing yet, with the same rules and contexts. -/
def new (rules : MergeRules) (bucketByArch : Bool) (contexts : Option ContextSet) :
    PackagePair where
  set := ⟨(PackageSet.empty rules .nameArch bucketByArch).packages.setContexts contexts⟩
  list := (PackageList.empty rules).setContexts contexts

/-- The answers of the set and of the list. -/
abbrev Answers : Type := Except MergeError Change × Except MergeError Change

/-- Does the step to the set and then to the list. There is no answer to new rules. -/
def step : Step → PackagePair → Supply → Option Answers × PackagePair × Supply
  | .merge h, pair, supply =>
    let inSet := PackageSet.merge h pair.set supply
    let inList := PackageList.merge h pair.list inSet.supply
    (some (inSet.result, inList.result), ⟨inSet.state, inList.state⟩, inList.supply)
  | .setRules rules, pair, supply =>
    (none, ⟨⟨pair.set.packages.setRules rules⟩, pair.list.setRules rules⟩, supply)

/-- Does the steps one after another and collects the answers. -/
def run : List Step → PackagePair → Supply → List Answers × PackagePair × Supply
  | [], pair, supply => ([], pair, supply)
  | s :: rest, pair, supply =>
    let first := step s pair supply
    let others := run rest first.2.1 first.2.2
    (first.1.toList ++ others.1, others.2)

/-- The second answer is the first one, but for the key that an error names. -/
def Agree (answers : Answers) : Prop := ∃ key, answers.1 = answers.2.mapError (·.withKey key)

/-- Both handles are one, or evaluated copies of one of the candidates. -/
def Alike (candidates : List (Handle Package)) (x y : Handle Package) : Prop :=
  x = y ∨ ∃ g ∈ candidates, ∃ priority cell cell',
    x = g.withPriority priority cell ∧ y = g.withPriority priority cell'

/-- The handle is a candidate, or a copy of one in a new cell. -/
def Known (base : Cell) (candidates : List (Handle Package)) (x : Handle Package) : Prop :=
  x ∈ candidates ∨
    ∃ g ∈ candidates, ∃ priority cell, base ≤ cell ∧ x = g.withPriority priority cell

variable {base : Cell} {candidates : List (Handle Package)} {pair : PackagePair} {supply : Supply}

/-- Known handles that differ at most by new cells are alike. -/
theorem alike_of_blur (old : ∀ g ∈ candidates, g.cell < base) {x y : Handle Package}
    (hx : Known base candidates x) (hy : Known base candidates y)
    (same : x.blur base = y.blur base) : Alike candidates x y := by
  rcases Handle.sameUpTo_of_blur same with is | ⟨new, -, origin, item⟩
  · exact .inl is
  · rcases hx with member | ⟨g, member, priority, cell, -, rfl⟩
    · exact absurd (old x member) (Nat.not_lt.mpr new)
    · refine .inr ⟨g, member, priority, cell, y.cell, rfl, ?_⟩
      obtain ⟨_, _, _⟩ := y
      simp only [Handle.item_withPriority, Handle.origin_withPriority] at item origin
      subst item origin
      rfl

theorem known_atPriority {h : Handle Package} (member : h ∈ candidates)
    (new : base ≤ supply.next) (priority : Int32) :
    Known base candidates (h.atPriority priority supply).1 := by
  unfold Handle.atPriority
  split
  · exact .inl member
  · exact .inr ⟨h, member, priority, supply.next, new, rfl⟩

/-- A chain of entries that are known knows its entries after a merge of a candidate as well. -/
theorem known_merge {c : Chain Package} (all : ∀ x ∈ c.items, Known base candidates x)
    {h : Handle Package} (member : h ∈ candidates) (new : base ≤ supply.next)
    (contexts : Option ContextSet) :
    ∀ x ∈ (Chain.merge contexts h c supply).state.items, Known base candidates x := by
  intro x held
  obtain ⟨items, after, old_or_new⟩ := Chain.merge_frame contexts h c supply
  rw [after] at held
  rcases old_or_new x held with before | ⟨priority, -, rfl⟩
  · exact all x before
  · exact known_atPriority member new priority

/-- The list, looked at bucket by bucket, is the set. -/
structure Matched (base : Cell) (candidates : List (Handle Package)) (pair : PackagePair) :
    Prop where
  wellFormed : pair.set.packages.WellFormed
  coarser : pair.set.packages.bucket.parts ≤ pair.list.chain.scope.parts
  contexts : pair.set.packages.contexts = pair.list.contexts
  chains : ∀ key, (pair.set.packages.chainAt key).relabel (Handle.blur base) =
    (pair.list.chain.bucketed pair.set.packages.bucket key).relabel (Handle.blur base)
  inSet : ∀ key, ∀ x ∈ (pair.set.packages.chainAt key).items, Known base candidates x
  inList : ∀ x ∈ pair.list.chain.items, Known base candidates x

namespace Matched

theorem find?_new (rules : MergeRules) (bucketByArch : Bool) (contexts : Option ContextSet)
    (key : String) :
    (PackagePair.new rules bucketByArch contexts).set.packages.find? key = none :=
  KeyedTable.Sound.find?_withBuckets _ key

theorem new (base : Cell) (candidates : List (Handle Package)) (rules : MergeRules)
    (bucketByArch : Bool) (contexts : Option ContextSet) :
    Matched base candidates (new rules bucketByArch contexts) where
  wellFormed := .empty rules _ .nameArch contexts {} _
  coarser := by
    cases bucketByArch with
    | false => exact Nat.le_succ 1
    | true => exact Nat.le_refl 2
  contexts := rfl
  chains key := by
    rw [ItemTable.chainAt_of_none (find?_new rules bucketByArch contexts key)]
    rfl
  inSet key x member := by
    rw [ItemTable.chainAt_of_none (find?_new rules bucketByArch contexts key)] at member
    exact absurd member List.not_mem_nil
  inList x member := absurd member List.not_mem_nil

/-- A new set of rules applies to every bucket. -/
theorem setRules (matched : Matched base candidates pair) (rules : MergeRules) :
    Matched base candidates
      ⟨⟨pair.set.packages.setRules rules⟩, pair.list.setRules rules⟩ where
  wellFormed := matched.wellFormed.setRules rules
  coarser := matched.coarser
  contexts := matched.contexts
  chains key := by
    rw [ItemTable.chainAt_setRules]
    exact congrArg (Chain.setRules · rules) (matched.chains key)
  inSet key x member := by
    rw [ItemTable.chainAt_setRules] at member
    exact matched.inSet key x member
  inList := matched.inList

/-- A merge of a candidate is answered alike, in whatever cells the copies are put. -/
theorem merge (matched : Matched base candidates pair)
    (old : ∀ g ∈ candidates, g.cell < base)
    (one : ∀ g ∈ candidates, ∀ g' ∈ candidates, g.cell = g'.cell → g = g')
    {h : Handle Package} (member : h ∈ candidates) {u w : Supply} (hu : base ≤ u.next)
    (hw : base ≤ w.next) :
    Agree ((PackageSet.merge h pair.set u).result, (PackageList.merge h pair.list w).result) ∧
      Matched base candidates
        ⟨(PackageSet.merge h pair.set u).state, (PackageList.merge h pair.list w).state⟩ := by
  have wf := matched.wellFormed
  have mine (x : Handle Package) (known : x ∈ pair.list.chain.items) (same : x.cell = h.cell) :
      pair.set.packages.bucket.key x.item = pair.set.packages.keyOf h.item := by
    rcases matched.inList x known with candidate | ⟨g, -, priority, cell, new, rfl⟩
    · rw [one x candidate h member same, ItemTable.keyOf]
    · rw [Handle.cell_withPriority] at same
      exact absurd (old h member) (Nat.not_lt.mpr (same ▸ new))
  have inside := Chain.merge_bucketed (c := pair.list.chain) matched.coarser rfl mine
    pair.list.contexts w
  have blurred := Chain.merge_blur (matched.chains (pair.set.packages.keyOf h.item))
    pair.list.contexts (old h member) hu hw
  have result := ItemTable.result_merge wf h u
  have chain := ItemTable.chainAt_merge wf h u
  rw [matched.contexts] at result
  simp only [matched.contexts] at chain
  refine ⟨⟨_, result.trans (blurred.1.trans inside.1)⟩, ?_⟩
  refine ⟨wf.merge h u, ?_, matched.contexts, ?_, ?_, known_merge matched.inList member hw _⟩
  · exact Nat.le_trans matched.coarser (Nat.le_of_eq (congrArg _ Chain.scope_merge.symm))
  · intro key
    refine (congrArg _ (chain key)).trans ?_
    -- one bucket is merged like the list, and the list leaves the entries of the others alone
    split
    · next same =>
      rw [same]
      exact blurred.2.trans (congrArg _ inside.2)
    · next apart =>
      have other_bucket := Chain.bucketed_merge_of_ne (c := pair.list.chain) matched.coarser
        (Ne.symm apart) pair.list.contexts w
      rw [matched.chains key, ← other_bucket]
      rfl
  · intro key x held
    replace held : x ∈ ((ItemTable.merge h pair.set.packages u).state.chainAt key).items := held
    rw [chain key] at held
    split at held
    · exact known_merge (matched.inSet key) member hu _ x held
    · exact matched.inSet key x held

/-- Every step is answered alike, and no step takes back cells. -/
theorem step (matched : Matched base candidates pair)
    (old : ∀ g ∈ candidates, g.cell < base)
    (one : ∀ g ∈ candidates, ∀ g' ∈ candidates, g.cell = g'.cell → g = g')
    {s : Step} (known : ∀ h, s = .merge h → h ∈ candidates) (new : base ≤ supply.next) :
    (∀ answers ∈ (PackagePair.step s pair supply).1, Agree answers) ∧
      Matched base candidates (PackagePair.step s pair supply).2.1 ∧
      base ≤ (PackagePair.step s pair supply).2.2.next := by
  cases s with
  | merge h =>
      have left : base ≤ (PackageSet.merge h pair.set supply).supply.next := by
        refine Nat.le_trans new ?_
        have taken := ItemTable.supply_merge matched.wellFormed h supply
        refine Nat.le_trans ?_ (Nat.le_of_eq (congrArg Supply.next taken.symm))
        exact Chain.le_next_supply_merge ..
      obtain ⟨agree, after⟩ := matched.merge old one (known h rfl) new left
      refine ⟨fun answers given => ?_, after, ?_⟩
      · exact Option.some.inj given ▸ agree
      · exact Nat.le_trans left (Chain.le_next_supply_merge pair.list.contexts h pair.list.chain _)
  | setRules rules =>
      exact ⟨fun _ given => absurd given (Option.not_mem_none _), matched.setRules rules, new⟩

/-- Every step of a run is answered alike. -/
theorem run (old : ∀ g ∈ candidates, g.cell < base)
    (one : ∀ g ∈ candidates, ∀ g' ∈ candidates, g.cell = g'.cell → g = g')
    {steps : List Step} :
    ∀ {pair : PackagePair} {supply : Supply}, Matched base candidates pair →
      (∀ h ∈ PackagePair.merged steps, h ∈ candidates) → base ≤ supply.next →
      (∀ answers ∈ (PackagePair.run steps pair supply).1, Agree answers) ∧
        Matched base candidates (PackagePair.run steps pair supply).2.1 := by
  induction steps with
  | nil =>
      intro pair supply matched _ _
      exact ⟨fun _ given => absurd given List.not_mem_nil, matched⟩
  | cons s rest ih =>
      intro pair supply matched known new
      have first : ∀ h, s = .merge h → h ∈ candidates := by
        rintro h rfl
        exact known h List.mem_cons_self
      have others (h : Handle Package) (member : h ∈ PackagePair.merged rest) :
          h ∈ candidates := by
        refine known h ?_
        rw [PackagePair.merged, List.filterMap_cons]
        split
        · exact member
        · exact List.mem_cons_of_mem _ member
      obtain ⟨agree, after, left⟩ := matched.step old one first new
      obtain ⟨agrees, final⟩ := ih after others left
      refine ⟨fun answers given => ?_, final⟩
      rcases List.mem_append.mp given with given | given
      · exact agree answers (Option.mem_toList.mp given)
      · exact agrees answers given

end Matched

/-- A set and a list that start empty answer every step alike, and under each bucket key the set
holds what the list holds with this key, in the same order. The packages are handles from before
the run, one in each cell. Since every beginning of a run is a run, this holds after each step. -/
theorem set_mirrors_list (rules : MergeRules) (bucketByArch : Bool)
    (contexts : Option ContextSet) (steps : List Step) (supply : Supply)
    (old : ∀ g ∈ merged steps, g.cell < supply.next)
    (one : ∀ g ∈ merged steps, ∀ g' ∈ merged steps, g.cell = g'.cell → g = g') :
    let done := run steps (new rules bucketByArch contexts) supply
    let set := done.2.1.set.packages
    (∀ answers ∈ done.1, Agree answers) ∧
      ∀ key, List.Forall₂ (Alike (merged steps))
        (((set.find? key).map (·.items)).getD [])
        (done.2.1.list.chain.items.filter fun x => set.keyOf x.item == key) := by
  intro done set
  obtain ⟨agree, matched⟩ := (Matched.new supply.next (merged steps) rules bucketByArch
    contexts).run old one (fun _ => id) (Nat.le_refl _)
  refine ⟨agree, ?_⟩
  intro key
  rw [← ItemTable.items_chainAt]
  apply forall₂_of_map_eq (congrArg Chain.items (matched.chains key))
  intro x inSet y inList
  exact alike_of_blur old (matched.inSet key x inSet)
    (matched.inList y (List.mem_filter.mp inList).1)

theorem set_mirrors_list_of_repeated :
    let vim : Handle Package := ⟨0, 1, { name := "vim", arch := some "arm" }⟩
    let dotted : Handle Package := ⟨2, 3, { name := "vim.arm", mark := some '=' }⟩
    let steps := [Step.merge vim, .merge dotted, .setRules .none, .merge vim]
    let done := run steps (new .standard true none) ⟨4⟩
    (∀ g ∈ merged steps, g.cell < 4) ∧
      (∀ g ∈ merged steps, ∀ g' ∈ merged steps, g.cell = g'.cell → g = g') ∧
      (∀ answers ∈ done.1, Agree answers) ∧
      ∀ key, List.Forall₂ (Alike (merged steps))
        (((done.2.1.set.packages.find? key).map (·.items)).getD [])
        (done.2.1.list.chain.items.filter fun x => done.2.1.set.packages.keyOf x.item == key) := by
  intro vim dotted steps done
  have old : ∀ g ∈ merged steps, g.cell < 4 := by decide
  have one : ∀ g ∈ merged steps, ∀ g' ∈ merged steps, g.cell = g'.cell → g = g' := by
    decide
  exact ⟨old, one, set_mirrors_list .standard true none steps ⟨4⟩ old one⟩

end PackagePair

end HostProfile
