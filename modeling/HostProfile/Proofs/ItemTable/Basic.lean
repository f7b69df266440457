import HostProfile.ItemTable
import HostProfile.Proofs.Chain.Reevaluate
import HostProfile.Proofs.KeyedTable.InPlace

/-!
# Well-formed item tables

In a well-formed table every definition lies in the chain of its bucket key, no chain is empty, and
all of them merge by the rules and under the scope of the table. Such a table is told completely by
`chainAt`, which has an empty chain where the table has none: each operation is described by what
it does to these chains.
-/

namespace HostProfile.ItemTable

variable {T : Type} [Item T]

/-- The chain under a bucket key, which is empty where the table has none. -/
def chainAt (t : ItemTable T) (key : String) : Chain T := (t.find? key).getD (t.emptyChain key)

/-- A chain as the table stores it under a bucket key. -/
structure Stored (t : ItemTable T) (key : String) (c : Chain T) : Prop where
  rules : c.rules = t.rules
  scope : c.scope = t.scope
  nonempty : c.items ≠ []
  placed : ∀ h ∈ c.items, t.keyOf h.item = key

/-- The table finds each chain that it holds, and each is as it should be. -/
structure WellFormed (t : ItemTable T) : Prop where
  sound : t.table.Sound
  stored : ∀ {key : String} {c : Chain T}, t.find? key = some c → t.Stored key c

variable {t : ItemTable T} {key : String} {c : Chain T} {h : Handle T} {supply : Supply}

theorem key_of_find? (found : t.find? key = some c) : c.key = key := by
  obtain ⟨-, -, -, same⟩ := KeyedTable.slotAt_of_find? found
  exact same

theorem chainAt_of_some (found : t.find? key = some c) : t.chainAt key = c := by
  rw [chainAt, found, Option.getD_some]

theorem chainAt_of_none (absent : t.find? key = none) : t.chainAt key = t.emptyChain key := by
  rw [chainAt, absent, Option.getD_none]

@[simp] theorem key_chainAt (t : ItemTable T) (key : String) : (t.chainAt key).key = key := by
  cases found : t.find? key with
  | none => rw [chainAt_of_none found]; rfl
  | some c => rw [chainAt_of_some found, key_of_find? found]

/-- Where an empty chain gives nothing, what is found under a key gives what the chain there
does. -/
theorem getD_map_find? {α : Type} {f : Chain T → List α} (nothing : f (t.emptyChain key) = []) :
    ((t.find? key).map f).getD [] = f (t.chainAt key) := by
  cases found : t.find? key with
  | none => rw [chainAt_of_none found, nothing]; rfl
  | some c => rw [chainAt_of_some found]; rfl

theorem bind_find? {α : Type} {f : Chain T → Option α} (nothing : f (t.emptyChain key) = none) :
    (t.find? key).bind f = f (t.chainAt key) := by
  cases found : t.find? key with
  | none => rw [chainAt_of_none found, nothing]; rfl
  | some c => rw [chainAt_of_some found]; rfl

theorem items_chainAt (t : ItemTable T) (key : String) :
    (t.chainAt key).items = ((t.find? key).map (·.items)).getD [] :=
  (getD_map_find? rfl).symm

theorem kept_eq_none {c : Chain T} : KeyedTable.kept c = none ↔ c.items = [] := by
  simp [KeyedTable.kept, Slot.isEmpty, List.isEmpty_iff]

theorem kept_eq_some {c c' : Chain T} :
    KeyedTable.kept c = some c' ↔ c.items ≠ [] ∧ c = c' := by
  simp [KeyedTable.kept, Slot.isEmpty, List.isEmpty_iff]

/-- An empty chain is nothing to keep, and the chain that the table creates in its stead is the
same. -/
theorem getD_kept {fresh : Chain T} (key : fresh.key = c.key) (rules : fresh.rules = c.rules)
    (scope : fresh.scope = c.scope) (empty : fresh.items = []) :
    (KeyedTable.kept c).getD fresh = c := by
  obtain ⟨_, items, _, _⟩ := c
  obtain ⟨_, _, _, _⟩ := fresh
  simp only at key rules scope empty
  subst key rules scope empty
  cases items <;> rfl

namespace WellFormed

theorem rules_chainAt (wf : t.WellFormed) (key : String) : (t.chainAt key).rules = t.rules := by
  cases found : t.find? key with
  | none => rw [chainAt_of_none found]; rfl
  | some c => rw [chainAt_of_some found, (wf.stored found).rules]

theorem scope_chainAt (wf : t.WellFormed) (key : String) : (t.chainAt key).scope = t.scope := by
  cases found : t.find? key with
  | none => rw [chainAt_of_none found]; rfl
  | some c => rw [chainAt_of_some found, (wf.stored found).scope]

theorem placed_chainAt (wf : t.WellFormed) (member : h ∈ (t.chainAt key).items) :
    t.keyOf h.item = key := by
  cases found : t.find? key with
  | none =>
      rw [chainAt_of_none found] at member
      exact absurd member List.not_mem_nil
  | some c =>
      rw [chainAt_of_some found] at member
      exact (wf.stored found).placed h member

/-- A well-formed table stores the chains that are not empty. -/
theorem find?_eq (wf : t.WellFormed) (key : String) :
    t.find? key = KeyedTable.kept (t.chainAt key) := by
  cases found : t.find? key with
  | none => rw [chainAt_of_none found, kept_eq_none.mpr rfl]
  | some c => rw [chainAt_of_some found, kept_eq_some.mpr ⟨(wf.stored found).nonempty, rfl⟩]

/-- A table that merges by the same settings is well formed when its chains are. -/
theorem of_find? {t' : ItemTable T} (sound : t'.table.Sound)
    (find : ∀ key, t'.find? key = KeyedTable.kept (t'.chainAt key))
    (rules : ∀ key, (t'.chainAt key).rules = t'.rules)
    (scope : ∀ key, (t'.chainAt key).scope = t'.scope)
    (placed : ∀ key, ∀ h ∈ (t'.chainAt key).items, t'.keyOf h.item = key) : t'.WellFormed where
  sound := sound
  stored {key c} found := by
    have is := chainAt_of_some found
    rw [find] at found
    refine ⟨is ▸ rules key, is ▸ scope key, is ▸ (kept_eq_some.mp found).1, is ▸ placed key⟩

end WellFormed

/-! ## Merging -/

@[simp] theorem rules_merge : (merge h t supply).state.rules = t.rules := rfl

@[simp] theorem scope_merge : (merge h t supply).state.scope = t.scope := rfl

theorem merge_sound (wf : t.WellFormed) (h : Handle T) (supply : Supply) :
    let key := t.keyOf h.item
    let done := Chain.merge t.contexts h (t.chainAt key) supply
    let after := merge h t supply
    after.result = done.result ∧ after.supply = done.supply ∧ after.state.table.Sound ∧
      ∀ k, after.state.find? k = if k = key then KeyedTable.kept done.state else t.find? k :=
  wf.sound.upsert _ supply (Chain.key_merge.trans (t.key_chainAt _))

/-- A merge is a merge into the chain of the bucket key. -/
theorem result_merge (wf : t.WellFormed) (h : Handle T) (supply : Supply) :
    (merge h t supply).result =
      (Chain.merge t.contexts h (t.chainAt (t.keyOf h.item)) supply).result :=
  (merge_sound wf h supply).1

theorem supply_merge (wf : t.WellFormed) (h : Handle T) (supply : Supply) :
    (merge h t supply).supply =
      (Chain.merge t.contexts h (t.chainAt (t.keyOf h.item)) supply).supply :=
  (merge_sound wf h supply).2.1

theorem chainAt_merge (wf : t.WellFormed) (h : Handle T) (supply : Supply) (key : String) :
    (merge h t supply).state.chainAt key =
      if key = t.keyOf h.item then (Chain.merge t.contexts h (t.chainAt key) supply).state
      else t.chainAt key := by
  rw [chainAt, (merge_sound wf h supply).2.2.2]
  split
  · next same =>
    subst same
    exact getD_kept (by simp [emptyChain]) (by simp [emptyChain, wf.rules_chainAt])
      (by simp [emptyChain, wf.scope_chainAt]) rfl
  · rfl

theorem WellFormed.merge [LawfulItem T] (wf : t.WellFormed) (h : Handle T) (supply : Supply) :
    (ItemTable.merge h t supply).state.WellFormed := by
  obtain ⟨-, -, sound, find⟩ := merge_sound wf h supply
  have chain := chainAt_merge wf h supply
  refine .of_find? sound (fun key => ?_) (fun key => ?_) (fun key => ?_) fun key x member => ?_
  · rw [find, chain]
    split
    · next same => rw [same]
    · exact wf.find?_eq key
  · rw [chain]
    split <;> simp [wf.rules_chainAt]
  · rw [chain]
    split <;> simp [wf.scope_chainAt]
  · rw [chain] at member
    split at member
    · next same =>
      obtain ⟨items, after, old_or_new⟩ :=
        Chain.merge_frame t.contexts h (t.chainAt key) supply
      rw [after] at member
      rcases old_or_new x member with old | ⟨priority, -, rfl⟩
      · exact wf.placed_chainAt old
      · rw [same]
        exact (h.version_atPriority priority supply).key_eq t.bucket
    · exact wf.placed_chainAt member

/-- A merge that leaves the chain of its bucket key leaves every chain. -/
theorem find?_merge_of_state [LawfulItem T] (wf : t.WellFormed)
    (same : (Chain.merge t.contexts h (t.chainAt (t.keyOf h.item)) supply).state =
      t.chainAt (t.keyOf h.item)) : (merge h t supply).state.find? = t.find? := by
  funext key
  rw [(wf.merge h supply).find?_eq, wf.find?_eq, chainAt_merge wf]
  split
  · next at_key => rw [at_key, same]
  · rfl

/-- A merge that changes nothing leaves every chain. -/
theorem find?_merge_of_unchanged [LawfulItem T] (wf : t.WellFormed)
    (ok : (merge h t supply).result = .ok .unchanged) (key : String) :
    (merge h t supply).state.find? key = t.find? key := by
  rw [result_merge wf] at ok
  exact congrFun (find?_merge_of_state wf (Chain.state_of_merge_eq_unchanged ok)) key

/-- What was merged once does nothing when it is merged again. -/
theorem merge_merge [LawfulItem T] (wf : t.WellFormed) {change : Change}
    (ok : (merge h t supply).result = .ok change) (later : Supply) :
    (merge h (merge h t supply).state later).result = .ok .unchanged := by
  rw [result_merge wf] at ok
  have again := Chain.merge_merge ok later
  have chain := chainAt_merge wf h supply (t.keyOf h.item)
  rw [if_pos rfl] at chain
  rw [result_merge (wf.merge h supply)]
  exact (congrArg (fun c => (Chain.merge t.contexts h c later).result) chain).trans again

/-! ## Merging chains and tables -/

/-- What a merge of one table into another keeps. -/
structure Fits (bucket scope : KeyScope) (rules : MergeRules) (t : ItemTable T) : Prop where
  wellFormed : t.WellFormed
  bucket : t.bucket = bucket
  scope : t.scope = scope
  rules : t.rules = rules

namespace Fits

variable [LawfulItem T] {bucket scope : KeyScope} {rules : MergeRules}

theorem merge (fits : Fits bucket scope rules t) (h : Handle T) (supply : Supply) :
    Fits bucket scope rules (ItemTable.merge h t supply).state :=
  ⟨fits.wellFormed.merge h supply, fits.bucket, fits.scope, fits.rules⟩

theorem mergeChain (fits : Fits bucket scope rules t) (c : Chain T) (supply : Supply) :
    Fits bucket scope rules (ItemTable.mergeChain c t supply).state :=
  Action.each_keeps (P := Fits bucket scope rules)
    (fun x _ _ supply before => before.merge x supply) t supply fits

theorem mergeTable (fits : Fits bucket scope rules t) (other : ItemTable T) (supply : Supply) :
    Fits bucket scope rules (ItemTable.mergeTable other t supply).state :=
  Action.each_keeps (P := Fits bucket scope rules)
    (fun c _ _ supply before => before.mergeChain c supply) t supply fits

end Fits

end HostProfile.ItemTable
