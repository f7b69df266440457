import HostProfile.Proofs.ItemTable.Basic

/-!
# Reachable item tables

A table is reachable when it comes from an empty one by merges, whether they succeed or fail, and
by the other operations. Every operation keeps a table well formed, so that every reachable table
is.
-/

namespace HostProfile.ItemTable

variable {T : Type} [Item T] {t : ItemTable T} {key : String} {h : Handle T} {supply : Supply}

/-! ## Settings -/

theorem find?_setRules (rules : MergeRules) (key : String) :
    (t.setRules rules).find? key = (t.find? key).map (·.setRules rules) :=
  KeyedTable.find?_mapSlots (f := (Chain.setRules · rules)) (fun _ => rfl) key

theorem chainAt_setRules (rules : MergeRules) (key : String) :
    (t.setRules rules).chainAt key = (t.chainAt key).setRules rules := by
  rw [chainAt, find?_setRules]
  cases found : t.find? key with
  | none =>
      rw [chainAt_of_none found]
      rfl
  | some c =>
      rw [chainAt_of_some found]
      rfl

namespace WellFormed

theorem empty (rules : MergeRules) (bucket scope : KeyScope) (contexts : Option ContextSet)
    (order : OutputOrder) (n : Nat) :
    WellFormed ({ table := .withBuckets n, rules, bucket, scope, contexts, order } :
      ItemTable T) where
  sound := KeyedTable.sound_withBuckets n
  stored found := absurd found (by simp [find?, KeyedTable.Sound.find?_withBuckets])

theorem setRules (wf : t.WellFormed) (rules : MergeRules) : (t.setRules rules).WellFormed where
  sound :=
    (KeyedTable.sameKeys_mapSlots (f := (Chain.setRules · rules)) fun _ => rfl).sound wf.sound
  stored found := by
    rw [find?_setRules] at found
    obtain ⟨c, before, rfl⟩ := Option.map_eq_some_iff.mp found
    obtain ⟨-, scope, nonempty, placed⟩ := wf.stored before
    exact ⟨rfl, scope, nonempty, placed⟩

theorem setContexts (wf : t.WellFormed) (contexts : Option ContextSet) :
    (t.setContexts contexts).WellFormed where
  sound := wf.sound
  stored found := by
    obtain ⟨rules, scope, nonempty, placed⟩ := wf.stored found
    exact ⟨rules, scope, nonempty, placed⟩

theorem setOrder (wf : t.WellFormed) (order : OutputOrder) : (t.setOrder order).WellFormed where
  sound := wf.sound
  stored found := by
    obtain ⟨rules, scope, nonempty, placed⟩ := wf.stored found
    exact ⟨rules, scope, nonempty, placed⟩

end WellFormed

/-! ## Removing -/

theorem remove_eq_some {c : Chain T} {rest : ItemTable T}
    (removed : t.remove key = some (c, rest)) :
    t.find? key = some c ∧ rest = { t with table := t.table.erase key } := by
  rw [remove, KeyedTable.remove_eq, Option.map_map] at removed
  obtain ⟨found, held, pair⟩ := Option.map_eq_some_iff.mp removed
  obtain ⟨rfl, rfl⟩ := Prod.ext_iff.mp pair
  exact ⟨held, rfl⟩

theorem WellFormed.remove {c : Chain T} {rest : ItemTable T} (wf : t.WellFormed)
    (removed : t.remove key = some (c, rest)) : rest.WellFormed := by
  obtain ⟨-, rfl⟩ := remove_eq_some removed
  obtain ⟨sound, find⟩ := wf.sound.erase key
  refine ⟨sound, fun {k c} found => ?_⟩
  rw [ItemTable.find?, find] at found
  split at found
  · exact absurd found nofun
  · obtain ⟨rules, scope, nonempty, placed⟩ := wf.stored found
    exact ⟨rules, scope, nonempty, placed⟩

theorem find?_prune (wf : t.WellFormed) (key : String) :
    t.prune.1.find? key = ((t.find? key).map Chain.prune).filter (!Slot.isEmpty ·) := by
  have sound := (KeyedTable.sameKeys_mapSlots (f := Chain.prune) fun _ => rfl).sound wf.sound
  exact ((sound.retain _).2.2 key).trans
    (congrArg (Option.filter _) (KeyedTable.find?_mapSlots (f := Chain.prune) (fun _ => rfl) key))

theorem WellFormed.prune (wf : t.WellFormed) : t.prune.1.WellFormed where
  sound :=
    (((KeyedTable.sameKeys_mapSlots (f := Chain.prune) fun _ => rfl).sound wf.sound).retain _).1
  stored found := by
    rw [find?_prune wf] at found
    obtain ⟨mapped, nonempty⟩ := Option.filter_eq_some_iff.mp found
    obtain ⟨c, before, rfl⟩ := Option.map_eq_some_iff.mp mapped
    obtain ⟨rules, scope, -, placed⟩ := wf.stored before
    refine ⟨rules, scope, ?_, fun h member => placed h (List.mem_filter.mp member).1⟩
    intro empty
    simp [Slot.isEmpty, empty] at nonempty

/-! ## Evaluating again -/

/-- The second chain is the first one with other versions of its handles. -/
def Reweighed (R : Handle T → Handle T → Prop) (c c' : Chain T) : Prop :=
  ∃ items, c' = { c with items } ∧ List.Forall₂ R c.items items

theorem state_reevaluate (set : ContextSet) (t : ItemTable T) (supply : Supply) :
    (reevaluate set t supply).state.table =
        (KeyedTable.eachSlot (Chain.reevaluate set) t.table supply).state ∧
      (reevaluate set t supply).state.rules = t.rules ∧
      (reevaluate set t supply).state.bucket = t.bucket ∧
      (reevaluate set t supply).state.scope = t.scope := by
  unfold reevaluate Outcome.andThen
  split <;> exact ⟨rfl, rfl, rfl, rfl⟩

theorem find?_reevaluate (set : ContextSet) (t : ItemTable T) (supply : Supply) (key : String) :
    Option.Rel (Reweighed Handle.Version) (t.find? key)
      ((reevaluate set t supply).state.find? key) := by
  rw [ItemTable.find?, ItemTable.find?, (state_reevaluate set t supply).1]
  refine KeyedTable.find?_eachSlot (fun _ _ => rfl) (fun c => ?_) (fun c supply => ?_) _ _ key
  · exact ⟨c.items, rfl, List.forall₂_same.mpr fun _ _ => .inl rfl⟩
  · exact ⟨_, rfl, Chain.reevaluateItems_version c.items supply⟩

/-- A successful evaluation evaluates every definition, and the table adopts the contexts. -/
theorem reevaluate_of_ok {set : ContextSet} {n : Nat}
    (ok : (reevaluate set t supply).result = .ok n) :
    (reevaluate set t supply).state.contexts = some set ∧ ∀ key,
      Option.Rel (Reweighed (Handle.Evaluated set)) (t.find? key)
        ((reevaluate set t supply).state.find? key) := by
  obtain ⟨m, result, after⟩ := Outcome.andThen_eq_of_ok ok
  refine ⟨congrArg (·.state.contexts) after, ?_⟩
  intro key
  rw [ItemTable.find?, ItemTable.find?, (state_reevaluate set t supply).1]
  exact KeyedTable.find?_eachSlot_of_ok (fun _ _ => rfl)
    (fun c supply n ok => ⟨_, rfl, Chain.reevaluateItems_evaluated c.items supply n ok⟩)
    _ _ result key

theorem WellFormed.reevaluate [LawfulItem T] (wf : t.WellFormed) (set : ContextSet)
    (supply : Supply) : (ItemTable.reevaluate set t supply).state.WellFormed := by
  obtain ⟨table, rules, bucket, scope⟩ := state_reevaluate set t supply
  refine ⟨?_, fun {key c'} found => ?_⟩
  · rw [table]
    exact (KeyedTable.sameKeys_eachSlot (fun _ _ => rfl) t.table supply).sound wf.sound
  · have rel := find?_reevaluate set t supply key
    rw [found] at rel
    obtain ⟨c, before, items, rfl, versions⟩ := KeyedTable.exists_of_rel_some rel
    obtain ⟨same_rules, same_scope, nonempty, placed⟩ := wf.stored before
    refine ⟨same_rules.trans rules.symm, same_scope.trans scope.symm, ?_, ?_⟩
    · rintro rfl
      exact nonempty (List.forall₂_nil_right_iff.mp versions)
    · intro y member
      obtain ⟨x, old, version⟩ := Chain.exists_of_forall₂ versions.flip member
      rw [ItemTable.keyOf, bucket, Handle.Version.key_eq version]
      exact placed x old

/-! ## Invariants -/

/-- A property of tables that merging and pruning keep. -/
structure Invariant (P : ItemTable T → Prop) : Prop where
  merge : ∀ {t : ItemTable T}, P t → ∀ h supply, P (ItemTable.merge h t supply).state
  prune : ∀ {t : ItemTable T}, P t → P t.prune.1

namespace Invariant

variable {P : ItemTable T → Prop}

theorem mergeChain (invariant : Invariant P) (holds : P t) (c : Chain T) (supply : Supply) :
    P (ItemTable.mergeChain c t supply).state :=
  Action.each_keeps (P := P) (fun h _ _ supply before => invariant.merge before h supply) t supply
    holds

theorem mergeTable (invariant : Invariant P) (holds : P t) (other : ItemTable T)
    (supply : Supply) : P (ItemTable.mergeTable other t supply).state :=
  Action.each_keeps (P := P) (fun c _ _ supply before => invariant.mergeChain before c supply) t
    supply holds

end Invariant

/-! ## Reachable tables -/

/-- The tables that come from empty ones by any operations. A merge may fail, and so may an
evaluation. -/
inductive Reachable : ItemTable T → Prop where
  | empty (rules : MergeRules) (bucket scope : KeyScope) (contexts : Option ContextSet)
      (order : OutputOrder) (n : Nat) :
      Reachable { table := .withBuckets n, rules, bucket, scope, contexts, order }
  | merge {t : ItemTable T} (h : Handle T) (supply : Supply) :
      Reachable t → Reachable (merge h t supply).state
  | setRules {t : ItemTable T} (rules : MergeRules) : Reachable t → Reachable (t.setRules rules)
  | setContexts {t : ItemTable T} (contexts : Option ContextSet) :
      Reachable t → Reachable (t.setContexts contexts)
  | setOrder {t : ItemTable T} (order : OutputOrder) : Reachable t → Reachable (t.setOrder order)
  | remove {t rest : ItemTable T} {key : String} {c : Chain T} :
      Reachable t → t.remove key = some (c, rest) → Reachable rest
  | prune {t : ItemTable T} : Reachable t → Reachable t.prune.1
  | reevaluate {t : ItemTable T} (set : ContextSet) (supply : Supply) :
      Reachable t → Reachable (reevaluate set t supply).state

namespace Reachable

theorem mergeChain (reachable : t.Reachable) (c : Chain T) (supply : Supply) :
    (ItemTable.mergeChain c t supply).state.Reachable :=
  Action.each_keeps (fun x _ _ supply before => before.merge x supply) t supply reachable

theorem mergeTable (reachable : t.Reachable) (other : ItemTable T) (supply : Supply) :
    (ItemTable.mergeTable other t supply).state.Reachable :=
  Action.each_keeps (fun c _ _ supply before => before.mergeChain c supply) t supply reachable

theorem wellFormed [LawfulItem T] (reachable : t.Reachable) : t.WellFormed := by
  induction reachable with
  | empty rules bucket scope contexts order n => exact .empty rules bucket scope contexts order n
  | merge h supply _ wf => exact wf.merge h supply
  | setRules rules _ wf => exact wf.setRules rules
  | setContexts contexts _ wf => exact wf.setContexts contexts
  | setOrder order _ wf => exact wf.setOrder order
  | remove _ removed wf => exact wf.remove removed
  | prune _ wf => exact wf.prune
  | reevaluate set supply _ wf => exact wf.reevaluate set supply

end Reachable

end HostProfile.ItemTable
