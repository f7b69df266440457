import HostProfile.Proofs.Chain.Exclusive
import HostProfile.Proofs.Chain.Local

/-!
# Pinned entries

A pinned entry is the only one with its key, and a definition with the same key meets it before any
directive or rule is asked. So no merge displaces the entry or puts another one beside it: a merge
fails, or it finds that the definition is the entry or a copy of it.
-/

namespace HostProfile.Chain

variable {T : Type} [Item T] {c : Chain T} {p h g : Handle T} {contexts : Option ContextSet}
  {supply : Supply}

/-- The answer of a merge that leaves an entry alone: it fails, or it finds that the definition is
the entry, or is a copy of the entry when it is evaluated. -/
def Repelled (p h : Handle T) (contexts : Option ContextSet) (answer : Except MergeError Change) :
    Prop :=
  (∃ e, answer = .error e) ∨
    answer = .ok .unchanged ∧
      (h = p ∨ h.Kin p ∧ priorityIn contexts h.item = .ok (Item.priority p.item))

theorem carries_pin (pinned : Item.mark p.item = some '=') : carries .pin p = true := by
  have directive : Item.directive p.item = .ok (some .pin) :=
    Item.directive_eq_some_iff.mpr pinned
  rw [carries, directive]
  rfl

theorem mark_ne_none_of_pinned (pinned : Item.mark p.item = some '=') :
    Item.mark p.item ≠ none := by
  rw [pinned]
  exact nofun

/-- A definition with the key of a pinned entry is refused, whatever its directive and the
rules. -/
theorem decide_of_pinned (orderly : c.Orderly) (member : p ∈ c.items)
    (pinned : Item.mark p.item = some '=') (collides : c.scope.collides p.item g.item = true) :
    ∃ e, c.decide g = .error e := by
  have alone : c.matching g.item = [p] := by
    rw [← matching_congr collides]
    exact orderly.matching_eq member (mark_ne_none_of_pinned pinned)
  rw [decide_eq]
  cases Item.directive g.item with
  | error e => exact ⟨.item e, rfl⟩
  | ok directive =>
      refine ⟨.pinned c.key (Item.describe p.item) (Item.describe g.item), ?_⟩
      simp only [alone, List.find?_cons, carries_pin pinned]

/-- A merge leaves a pinned entry in the chain. -/
theorem mem_merge_of_pinned (orderly : c.Orderly) (member : p ∈ c.items)
    (pinned : Item.mark p.item = some '=') (contexts : Option ContextSet) (h : Handle T)
    (supply : Supply) : p ∈ (merge contexts h c supply).state.items := by
  apply merge_keeps (P := fun after => p ∈ after.items) member
  intro g change items accepts
  -- What the chain takes in has another key, and the entries with the key of `p` stay.
  have other : c.scope.collides g.item p.item = false := by
    apply eq_false_of_ne_true
    intro collides
    rw [KeyScope.collides_comm] at collides
    obtain ⟨e, refused⟩ := decide_of_pinned orderly member pinned collides
    exact absurd (refused.symm.trans accepts.decide_eq) nofun
  have kept := accepts.filter_other (q := c.collides p.item) other fun x collides => by
    show c.scope.collides x.item p.item = false
    rw [KeyScope.collides_congr collides]
    exact other
  have still : p ∈ items.filter (c.collides p.item) := by
    rw [kept]
    exact List.mem_filter.mpr ⟨member, KeyScope.collides_refl c.scope p.item⟩
  exact (List.mem_filter.mp still).1

variable [LawfulItem T]

/-- A merge of a definition with the key of a pinned entry is repelled. A cell holds one handle, so
that the handle in the cell of the definition is the definition. -/
theorem repelled_of_pinned (orderly : c.Orderly) (member : p ∈ c.items)
    (pinned : Item.mark p.item = some '=') (collides : c.scope.collides p.item h.item = true)
    (one : ∀ x ∈ c.items, x.cell = h.cell → x = h) (contexts : Option ContextSet)
    (supply : Supply) :
    Repelled p h contexts (merge contexts h c supply).result ∧
      (merge contexts h c supply).state = c := by
  have marked := mark_ne_none_of_pinned pinned
  have only (x : Handle T) (held : x ∈ c.items)
      (same_key : c.scope.collides x.item p.item = true) : x = p := by
    have matched : x ∈ c.matching p.item := List.mem_filter.mpr ⟨held, same_key⟩
    rw [orderly.matching_eq member marked] at matched
    exact List.mem_singleton.mp matched
  rw [merge_eq]
  by_cases found : c.contains h = true
  · rw [if_pos found]
    obtain ⟨x, held, same⟩ := List.any_eq_true.mp found
    obtain rfl := one x held (beq_iff_eq.mp same)
    refine ⟨.inr ⟨rfl, .inl (only x held ?_)⟩, rfl⟩
    rw [KeyScope.collides_comm]
    exact collides
  rw [if_neg found]
  cases value : priorityIn contexts h.item with
  | error e => exact ⟨.inl ⟨_, rfl⟩, rfl⟩
  | ok priority =>
      have evaluated : c.scope.collides p.item (h.atPriority priority supply).1.item = true := by
        rw [Handle.item_atPriority, KeyScope.collides_withPriority_right]
        exact collides
      dsimp only
      split
      · next copied =>
        obtain ⟨x, held, copies⟩ := List.any_eq_true.mp copied.2
        obtain ⟨kin, same_priority⟩ := Handle.Kin.copies_iff.mp copies
        have is : x = p := by
          apply only x held
          apply KeyScope.collides_trans (KeyScope.collides_of_sameFields c.scope kin.2)
          rw [KeyScope.collides_comm]
          exact evaluated
        subst is
        refine ⟨.inr ⟨rfl, .inr ⟨?_, ?_⟩⟩, rfl⟩
        · exact (h.version_atPriority priority supply).kin.trans kin.symm
        · rw [value, same_priority]
          simp
      · obtain ⟨e, refused⟩ := decide_of_pinned orderly member pinned evaluated
        rw [settle_eq, refused]
        exact ⟨.inl ⟨e, rfl⟩, rfl⟩

/-- No run of merges, under whatever rules and contexts, takes a pinned entry out of the chain. -/
theorem Merged.mem_of_pinned {c' : Chain T} (run : c.Merged c') (reachable : c.Reachable)
    (member : p ∈ c.items) (pinned : Item.mark p.item = some '=') : p ∈ c'.items := by
  induction run with
  | refl => exact member
  | merge contexts h supply before still =>
      exact mem_merge_of_pinned (before.reachable reachable).orderly still pinned contexts h supply
  | setRules _ _ still => exact still

/-- What holds of a pinned entry in a chain: no other entry has its key, and definitions with this
key are repelled and change nothing. -/
structure Holding (p : Handle T) (c : Chain T) : Prop where
  alone : c.matching p.item = [p]
  repels : ∀ (contexts : Option ContextSet) (h : Handle T) (supply : Supply),
    c.scope.collides p.item h.item = true → (∀ x ∈ c.items, x.cell = h.cell → x = h) →
      Repelled p h contexts (merge contexts h c supply).result ∧
        (merge contexts h c supply).state = c

theorem Merged.holding {c' : Chain T} (run : c.Merged c') (reachable : c.Reachable)
    (member : p ∈ c.items) (pinned : Item.mark p.item = some '=') : c'.Holding p := by
  have orderly := (run.reachable reachable).orderly
  have still := run.mem_of_pinned reachable member pinned
  refine ⟨orderly.matching_eq still (mark_ne_none_of_pinned pinned), ?_⟩
  intro contexts h supply collides one
  exact repelled_of_pinned orderly still pinned collides one contexts supply

end HostProfile.Chain
