import HostProfile.Proofs.Chain.Exclusive
import HostProfile.Proofs.ItemTable.Reachable

/-!
# The chains of a table

Whatever is done to a table is done to its chains: a merge is one into the chain of its bucket key,
and the other operations do the same to each. So all that is known of reachable chains is known of
the chains of reachable tables. Where the bucket scope is not finer than the collision scope, two
definitions that collide lie in one chain, and what holds in each chain holds in the whole table.
-/

namespace HostProfile.ItemTable

variable {T : Type} [Item T] {t : ItemTable T} {key : String} {h : Handle T} {supply : Supply}
  {allowed : MergeRules → Prop}

/-! ## What the operations do to a chain -/

theorem chainAt_empty (rules : MergeRules) (bucket scope : KeyScope)
    (contexts : Option ContextSet) (order : OutputOrder) (n : Nat) (key : String) :
    chainAt ({ table := .withBuckets n, rules, bucket, scope, contexts, order } : ItemTable T)
      key = { key, rules, scope } :=
  chainAt_of_none (KeyedTable.Sound.find?_withBuckets n key)

theorem chainAt_remove {c : Chain T} {rest : ItemTable T} (wf : t.WellFormed) {removed : String}
    (is : t.remove removed = some (c, rest)) (key : String) :
    rest.chainAt key = if key = removed then t.emptyChain key else t.chainAt key := by
  obtain ⟨-, rfl⟩ := remove_eq_some is
  rw [chainAt, ItemTable.find?, (wf.sound.erase removed).2]
  split <;> rfl

theorem chainAt_prune (wf : t.WellFormed) (key : String) :
    t.prune.1.chainAt key = (t.chainAt key).prune := by
  rw [chainAt, find?_prune wf]
  cases found : t.find? key with
  | none =>
      rw [chainAt_of_none found]
      rfl
  | some c =>
      have stored := wf.stored found
      rw [chainAt_of_some found, Option.map_some, KeyedTable.filter_some_eq_kept]
      exact getD_kept (key_of_find? found).symm stored.rules.symm stored.scope.symm rfl

/-- An evaluation evaluates a chain or, when it fails before, leaves it. -/
theorem chainAt_reevaluate (set : ContextSet) (t : ItemTable T) (supply : Supply) (key : String) :
    (reevaluate set t supply).state.chainAt key = t.chainAt key ∨
      ∃ left, (reevaluate set t supply).state.chainAt key =
        (Chain.reevaluate set (t.chainAt key) left).state := by
  have related : Option.Rel
      (fun c c' => c' = c ∨ ∃ left, c' = (Chain.reevaluate set c left).state)
      (t.find? key) ((reevaluate set t supply).state.find? key) := by
    rw [ItemTable.find?, ItemTable.find?, (state_reevaluate set t supply).1]
    exact KeyedTable.find?_eachSlot (fun _ _ => rfl) (fun _ => .inl rfl)
      (fun _ supply => .inr ⟨supply, rfl⟩) t.table supply key
  obtain ⟨-, rules, -, scope⟩ := state_reevaluate set t supply
  cases found : t.find? key with
  | none =>
      rw [found] at related
      have absent := KeyedTable.isNone_of_rel related
      rw [Option.isNone_none, Option.isNone_iff_eq_none] at absent
      rw [chainAt_of_none found, chainAt_of_none absent, emptyChain, rules, scope]
      exact .inl rfl
  | some c =>
      rw [found] at related
      obtain ⟨c', found', either⟩ := KeyedTable.exists_of_some_rel related
      rw [chainAt_of_some found, chainAt_of_some found']
      exact either

/-! ## Tables of reachable chains -/

/-- A well-formed table whose chains come from empty ones, as long as no other rules came into
force than the allowed ones. -/
structure Chained (allowed : MergeRules → Prop) (t : ItemTable T) : Prop where
  wellFormed : t.WellFormed
  rules : allowed t.rules
  reachable : ∀ key, (t.chainAt key).ReachableBy allowed

namespace Chained

theorem empty {rules : MergeRules} (allows : allowed rules) (bucket scope : KeyScope)
    (contexts : Option ContextSet) (order : OutputOrder) (n : Nat) :
    Chained allowed
      ({ table := .withBuckets n, rules, bucket, scope, contexts, order } : ItemTable T) where
  wellFormed := .empty rules bucket scope contexts order n
  rules := allows
  reachable key := by
    rw [chainAt_empty]
    exact .empty key scope allows

theorem setRules (chained : t.Chained allowed) {rules : MergeRules} (allows : allowed rules) :
    (t.setRules rules).Chained allowed where
  wellFormed := chained.wellFormed.setRules rules
  rules := allows
  reachable key := by
    rw [chainAt_setRules]
    exact (chained.reachable key).setRules allows

theorem setContexts (chained : t.Chained allowed) (contexts : Option ContextSet) :
    (t.setContexts contexts).Chained allowed :=
  ⟨chained.wellFormed.setContexts contexts, chained.rules, chained.reachable⟩

theorem setOrder (chained : t.Chained allowed) (order : OutputOrder) :
    (t.setOrder order).Chained allowed :=
  ⟨chained.wellFormed.setOrder order, chained.rules, chained.reachable⟩

theorem remove (chained : t.Chained allowed) {c : Chain T} {rest : ItemTable T}
    (removed : t.remove key = some (c, rest)) : rest.Chained allowed where
  wellFormed := chained.wellFormed.remove removed
  rules := by
    obtain ⟨-, rfl⟩ := remove_eq_some removed
    exact chained.rules
  reachable k := by
    rw [chainAt_remove chained.wellFormed removed]
    split
    · exact .empty k t.scope chained.rules
    · exact chained.reachable k

theorem prune (chained : t.Chained allowed) : t.prune.1.Chained allowed where
  wellFormed := chained.wellFormed.prune
  rules := chained.rules
  reachable key := by
    rw [chainAt_prune chained.wellFormed]
    exact (chained.reachable key).prune

variable [LawfulItem T]

theorem merge (chained : t.Chained allowed) (h : Handle T) (supply : Supply) :
    (ItemTable.merge h t supply).state.Chained allowed where
  wellFormed := chained.wellFormed.merge h supply
  rules := chained.rules
  reachable key := by
    rw [chainAt_merge chained.wellFormed]
    split
    · exact (chained.reachable key).merge t.contexts h supply
    · exact chained.reachable key

theorem invariant (allowed : MergeRules → Prop) : Invariant (Chained (T := T) allowed) where
  merge chained h supply := chained.merge h supply
  prune := prune

theorem mergeChain (chained : t.Chained allowed) (c : Chain T) (supply : Supply) :
    (ItemTable.mergeChain c t supply).state.Chained allowed :=
  (invariant allowed).mergeChain chained c supply

theorem mergeTable (chained : t.Chained allowed) (other : ItemTable T) (supply : Supply) :
    (ItemTable.mergeTable other t supply).state.Chained allowed :=
  (invariant allowed).mergeTable chained other supply

theorem reevaluate (chained : t.Chained allowed) (set : ContextSet) (supply : Supply) :
    (ItemTable.reevaluate set t supply).state.Chained allowed where
  wellFormed := chained.wellFormed.reevaluate set supply
  rules := by
    rw [(state_reevaluate set t supply).2.1]
    exact chained.rules
  reachable key := by
    rcases chainAt_reevaluate set t supply key with same | ⟨left, evaluated⟩
    · rw [same]
      exact chained.reachable key
    · rw [evaluated]
      exact (chained.reachable key).reevaluate set left

end Chained

/-- The chains of a reachable table are reachable. -/
theorem Reachable.chained [LawfulItem T] (reachable : t.Reachable) :
    t.Chained fun _ => True := by
  induction reachable with
  | empty rules bucket scope contexts order n =>
      exact .empty trivial bucket scope contexts order n
  | merge h supply _ before => exact before.merge h supply
  | setRules rules _ before => exact before.setRules trivial
  | setContexts contexts _ before => exact before.setContexts contexts
  | setOrder order _ before => exact before.setOrder order
  | remove _ removed before => exact before.remove removed
  | prune _ before => exact before.prune
  | reevaluate set supply _ before => exact before.reevaluate set supply

/-! ## Runs of merges -/

/-- What becomes of a table by merges, whether they succeed or fail, and by other rules and
contexts. -/
inductive Merged (t : ItemTable T) : ItemTable T → Prop where
  | refl : Merged t t
  | merge {t' : ItemTable T} (h : Handle T) (supply : Supply) :
      Merged t t' → Merged t (merge h t' supply).state
  | setRules {t' : ItemTable T} (rules : MergeRules) : Merged t t' → Merged t (t'.setRules rules)
  | setContexts {t' : ItemTable T} (contexts : Option ContextSet) :
      Merged t t' → Merged t (t'.setContexts contexts)

namespace Merged

variable {t' : ItemTable T}

theorem bucket_eq (run : t.Merged t') : t'.bucket = t.bucket := by
  induction run with
  | refl => rfl
  | merge _ _ _ before => exact before
  | setRules _ _ before => exact before
  | setContexts _ _ before => exact before

theorem reachable (run : t.Merged t') (reachable : t.Reachable) : t'.Reachable := by
  induction run with
  | refl => exact reachable
  | merge h supply _ before => exact before.merge h supply
  | setRules rules _ before => exact before.setRules rules
  | setContexts contexts _ before => exact before.setContexts contexts

/-- Each chain is merged into by such a run, or left alone. -/
theorem chainAt [LawfulItem T] (run : t.Merged t') (start : t.Reachable) (key : String) :
    (t.chainAt key).Merged (t'.chainAt key) := by
  induction run with
  | refl => exact .refl
  | merge h supply before chain =>
      rw [chainAt_merge (before.reachable start).wellFormed]
      split
      · exact chain.merge _ h supply
      · exact chain
  | setRules rules _ chain =>
      rw [chainAt_setRules]
      exact chain.setRules rules
  | setContexts _ _ chain => exact chain

end Merged

/-! ## The whole table -/

namespace WellFormed

theorem find?_key (wf : t.WellFormed) {c : Chain T} (member : c ∈ t.table.slots) :
    t.find? c.key = some c :=
  wf.sound.find?_eq_some_iff.mpr ⟨member, rfl⟩

theorem chainAt_key (wf : t.WellFormed) {c : Chain T} (member : c ∈ t.table.slots) :
    t.chainAt c.key = c :=
  chainAt_of_some (wf.find?_key member)

theorem keyOf_of_mem (wf : t.WellFormed) {c : Chain T} (member : c ∈ t.table.slots)
    (held : h ∈ c.items) : t.keyOf h.item = c.key :=
  (wf.stored (wf.find?_key member)).placed h held

/-- A table holds what its chains hold. -/
theorem mem_handles_iff (wf : t.WellFormed) :
    h ∈ t.handles ↔ h ∈ (t.chainAt (t.keyOf h.item)).items := by
  rw [handles, List.mem_flatMap]
  constructor
  · rintro ⟨c, member, held⟩
    rw [wf.keyOf_of_mem member held, wf.chainAt_key member]
    exact held
  · intro held
    cases found : t.find? (t.keyOf h.item) with
    | none =>
        rw [chainAt_of_none found] at held
        exact absurd held List.not_mem_nil
    | some c =>
        rw [chainAt_of_some found] at held
        exact ⟨c, (wf.sound.find?_eq_some_iff.mp found).1, held⟩

theorem mem_handles_of_mem (wf : t.WellFormed) {key : String}
    (held : h ∈ (t.chainAt key).items) : h ∈ t.handles := by
  rw [wf.mem_handles_iff, wf.placed_chainAt held]
  exact held

/-- What relates all definitions of each chain, and all that do not collide, relates all
definitions of the table. -/
theorem pairwise_handles {R : T → T → Prop} (wf : t.WellFormed)
    (coarser : t.bucket.parts ≤ t.scope.parts)
    (apart : ∀ a b, t.scope.collides a b = false → R a b)
    (inside : ∀ key, (t.chainAt key).AllRelated R) :
    t.handles.Pairwise fun x y => R x.item y.item := by
  rw [handles, List.pairwise_flatMap]
  constructor
  · intro c member
    rw [← wf.chainAt_key member]
    exact inside c.key
  · have keys : t.table.slots.Pairwise fun c c' => c.key ≠ c'.key :=
      List.pairwise_map.mp wf.sound.nodup_keys
    refine keys.imp_of_mem fun {c c'} member member' ne x held y held' => ?_
    apply apart
    apply eq_false_of_ne_true
    intro collides
    have same_key : t.keyOf x.item = t.keyOf y.item := KeyScope.key_eq_of_collides coarser collides
    rw [wf.keyOf_of_mem member held, wf.keyOf_of_mem member' held'] at same_key
    exact ne same_key

end WellFormed

end HostProfile.ItemTable
