import HostProfile.Proofs.Chain.Indices
import HostProfile.Proofs.Item

/-!
# Decisions of a chain

`Accepts` lists the ways in which a chain takes in a definition, each with what brings it about and
what it leaves, so that a property of merges has one case for each way and none of them has to be
found in the text of `decide` again. A decision looks at items only: it does not depend on the
cells of the handles, and not on entries that cannot have the key of the definition.
-/

namespace HostProfile.Chain

variable {T : Type} [Item T] {c : Chain T} {h : Handle T}

/-- Whether the entry has the key and the fields of the definition. -/
def identical (c : Chain T) (h entry : Handle T) : Bool :=
  c.collides h.item entry && Item.sameFields entry.item h.item

/-- No entry with the key of the definition is pinned. -/
def Unpinned (c : Chain T) (h : Handle T) : Prop :=
  (c.matching h.item).find? (carries .pin) = none

/-- The rules have to decide: neither the definition nor an entry with its key carries a directive
that would, and `first` is the first of these entries. -/
structure Contest (c : Chain T) (h first : Handle T) : Prop where
  plain : Item.directive h.item = .ok none
  unpinned : c.Unpinned h
  head : (c.matching h.item).head? = some first
  unmarked : carriesDirective first = false

/-- The ways in which a chain takes in a definition. -/
inductive Accepts (c : Chain T) (h : Handle T) : Change → List (Handle T) → Prop where
  /-- A directive puts it in the place of the entries with its key. -/
  | enforced {d : Directive} {change : Change} {items : List (Handle T)}
      (directive : Item.directive h.item = .ok (some d)) (unpinned : c.Unpinned h)
      (puts : d = .add ∨ d = .pin ∨ d = .upgrade)
      (result : c.replaceAll h (c.matchIndices h.item) = (change, items)) :
      Accepts c h change items
  /-- It removes the entries with its key. -/
  | removed (directive : Item.directive h.item = .ok (some .remove)) (unpinned : c.Unpinned h)
      (clash : c.items.any (c.collides h.item) = true) :
      Accepts c h .removed (c.items.filter (!c.collides h.item ·))
  /-- It would remove entries, but there is none with its key. -/
  | vain (directive : Item.directive h.item = .ok (some .remove))
      (free : c.items.any (c.collides h.item) = false) : Accepts c h .unchanged c.items
  /-- A fallback stands back behind an entry with its key. -/
  | dispensable (directive : Item.directive h.item = .ok (some .fallback))
      (unpinned : c.Unpinned h) (clash : c.items.any (c.collides h.item) = true) :
      Accepts c h .unchanged c.items
  /-- A fallback is needed. -/
  | needed (directive : Item.directive h.item = .ok (some .fallback))
      (free : c.items.any (c.collides h.item) = false) : Accepts c h .added (c.items ++ [h])
  /-- No entry has its key. -/
  | appended (plain : Item.directive h.item = .ok none)
      (free : c.items.any (c.collides h.item) = false) : Accepts c h .added (c.items ++ [h])
  /-- The first entry with its key was put there by a directive. -/
  | outranked {first : Handle T} (plain : Item.directive h.item = .ok none)
      (unpinned : c.Unpinned h) (head : (c.matching h.item).head? = some first)
      (marked : carriesDirective first = true) : Accepts c h .unchanged c.items
  /-- It takes the place of an entry with the same fields. -/
  | squashed {first : Handle T} (contest : c.Contest h first)
      (rule : c.rules.squashIdentical = true) (twin : c.items.any (c.identical h) = true) :
      Accepts c h .replaced (replaceFirst (c.identical h) h c.items)
  /-- It is kept beside the entries with its key. -/
  | beside {first : Handle T} (contest : c.Contest h first)
      (unsquashed : (c.rules.squashIdentical && c.items.any (c.identical h)) = false)
      (rule : c.rules.keepAll = true) : Accepts c h .added (c.items ++ [h])
  /-- It takes the place of the entries with its key. -/
  | displaced {first : Handle T} {change : Change} {items : List (Handle T)}
      (contest : c.Contest h first)
      (unsquashed : (c.rules.squashIdentical && c.items.any (c.identical h)) = false)
      (one : c.rules.keepAll = false) (rule : c.rules.replace = true)
      (result : c.replaceAll h (c.matchIndices h.item) = (change, items)) : Accepts c h change items
  /-- It has a higher priority than the first entry with its key. -/
  | won {first : Handle T} (contest : c.Contest h first)
      (unsquashed : (c.rules.squashIdentical && c.items.any (c.identical h)) = false)
      (one : c.rules.keepAll = false) (stay : c.rules.replace = false)
      (rule : c.rules.usePriority = true)
      (higher : Item.priority first.item < Item.priority h.item) :
      Accepts c h .replaced (replaceFirst (c.collides h.item) h c.items)
  /-- It has a lower priority than the first entry with its key. -/
  | lost {first : Handle T} (contest : c.Contest h first)
      (unsquashed : (c.rules.squashIdentical && c.items.any (c.identical h)) = false)
      (one : c.rules.keepAll = false) (stay : c.rules.replace = false)
      (rule : c.rules.usePriority = true)
      (lower : Item.priority h.item < Item.priority first.item) : Accepts c h .unchanged c.items

theorem any_collides_of_head {item : T} {first : Handle T}
    (head : (c.matching item).head? = some first) : c.items.any (c.collides item) = true := by
  cases clash : c.items.any (c.collides item) with
  | true => rfl
  | false => simp [matching_eq_nil_iff.mpr clash] at head

theorem unpinned_of_free (free : c.items.any (c.collides h.item) = false) : c.Unpinned h := by
  rw [Unpinned, matching_eq_nil_iff.mpr free, List.find?_nil]

/-! ## Decisions without indices -/

theorem replaceAll_eq (c : Chain T) (h : Handle T) :
    c.replaceAll h (c.matchIndices h.item) =
      (if c.items.any (c.collides h.item) then .replaced else .added,
        c.items.filter (!c.collides h.item ·) ++ [h]) := by
  rw [replaceAll, isEmpty_matchIndices]
  cases clash : c.items.any (c.collides h.item) with
  | true => exact congrArg (Change.replaced, · ++ [h]) (items_removeIndices c h.item)
  | false =>
      have all : c.items.filter (!c.collides h.item ·) = c.items :=
        List.filter_eq_self.mpr fun x member => by simp [List.any_eq_false.mp clash x member]
      rw [all]
      rfl

theorem obey_remove (c : Chain T) (h : Handle T) :
    c.obey h (c.matchIndices h.item) .remove =
      if c.items.any (c.collides h.item) then
        (.removed, c.items.filter (!c.collides h.item ·))
      else (.unchanged, c.items) := by
  rw [obey, isEmpty_matchIndices, items_removeIndices]
  cases c.items.any (c.collides h.item) <;> rfl

theorem obey_fallback (c : Chain T) (h : Handle T) :
    c.obey h (c.matchIndices h.item) .fallback =
      if c.items.any (c.collides h.item) then (.unchanged, c.items)
      else (.added, c.items ++ [h]) := by
  rw [obey, isEmpty_matchIndices]
  cases c.items.any (c.collides h.item) <;> rfl

theorem applyRules_eq {first : Handle T} (head : (c.matching h.item).head? = some first) :
    c.applyRules h (c.matchIndices h.item) =
      if c.rules.squashIdentical && c.items.any (c.identical h) then
        .ok (.replaced, replaceFirst (c.identical h) h c.items)
      else if c.rules.keepAll then .ok (.added, c.items ++ [h])
      else if c.rules.replace then .ok (c.replaceAll h (c.matchIndices h.item))
      else if c.rules.usePriority then
        if Item.priority first.item < Item.priority h.item then
          .ok (.replaced, replaceFirst (c.collides h.item) h c.items)
        else if Item.priority h.item < Item.priority first.item then .ok (.unchanged, c.items)
        else .error (c.conflict first h)
      else .error (c.conflict first h) := by
  obtain ⟨i, others, indices, rfl⟩ := exists_matchIndices head
  have won : (c.replaceAt i h).items = replaceFirst (c.collides h.item) h c.items :=
    items_replaceAt_first indices
  have twin := isSome_find?_matchIndices c h.item fun x => Item.sameFields x.item h.item
  have squashed {j : Fin c.items.length} := @items_replaceAt _ _ c h.item h
    (fun x => Item.sameFields x.item h.item) j
  rw [indices] at twin squashed ⊢
  simp only [applyRules, won]
  cases c.rules.squashIdentical with
  | false => rfl
  | true =>
      cases found : (i :: others).find? fun j => Item.sameFields (c.itemAt j).item h.item with
      | none =>
          rw [found] at twin
          rw [show c.items.any (c.identical h) = false from twin.symm]
          rfl
      | some j =>
          rw [found] at twin
          rw [show c.items.any (c.identical h) = true from twin.symm]
          exact congrArg (fun items => Except.ok (Change.replaced, items)) (squashed found)

theorem decide_eq (c : Chain T) (h : Handle T) :
    c.decide h =
      match Item.directive h.item with
      | .error e => .error (.item e)
      | .ok directive =>
        match (c.matching h.item).find? (carries .pin), directive, c.matching h.item with
        | some pinned, _, _ =>
          .error (.pinned c.key (Item.describe pinned.item) (Item.describe h.item))
        | none, some d, _ => .ok (c.obey h (c.matchIndices h.item) d)
        | none, none, [] => .ok (.added, c.items ++ [h])
        | none, none, first :: _ =>
          if carriesDirective first then .ok (.unchanged, c.items)
          else c.applyRules h (c.matchIndices h.item) := by
  unfold decide applyDirective
  cases Item.directive h.item with
  | error e => rfl
  | ok directive =>
      simp only [← map_itemAt_find? c h.item (carries .pin)]
      cases (c.matchIndices h.item).find? fun i => carries .pin (c.itemAt i) with
      | some i => rfl
      | none =>
          cases directive with
          | some d => rfl
          | none =>
              rw [← map_itemAt_matchIndices]
              cases c.matchIndices h.item with
              | nil => rfl
              | cons first others =>
                  cases marked : carriesDirective (c.itemAt first) <;>
                    simp only [List.head?_cons, Option.any_some, List.map_cons, Option.map_none,
                      marked, if_true, Bool.false_eq_true, if_false]

theorem Contest.decide_eq {first : Handle T} (contest : c.Contest h first) :
    c.decide h = c.applyRules h (c.matchIndices h.item) := by
  obtain ⟨rest, entries⟩ := List.head?_eq_some_iff.mp contest.head
  have unpinned := contest.unpinned
  rw [Unpinned, entries] at unpinned
  simp only [Chain.decide_eq, contest.plain, entries, unpinned, contest.unmarked,
    Bool.false_eq_true, if_false]

theorem accepts_of_applyRules {first : Handle T} {change : Change} {items : List (Handle T)}
    (contest : c.Contest h first)
    (ok : c.applyRules h (c.matchIndices h.item) = .ok (change, items)) :
    c.Accepts h change items := by
  rw [applyRules_eq contest.head] at ok
  split at ok
  · next squash =>
    obtain ⟨rule, twin⟩ := Bool.and_eq_true_iff.mp squash
    cases ok
    exact .squashed contest rule twin
  next squash =>
  rw [Bool.not_eq_true] at squash
  split at ok
  · next keep =>
    cases ok
    exact .beside contest squash keep
  next one =>
  split at ok
  · next replace =>
    exact .displaced contest squash (Bool.not_eq_true _ ▸ one) replace (Except.ok.inj ok)
  next stay =>
  split at ok
  · next priority =>
    split at ok
    · next higher =>
      cases ok
      exact .won contest squash (Bool.not_eq_true _ ▸ one) (Bool.not_eq_true _ ▸ stay) priority
        higher
    · split at ok
      · next lower =>
        cases ok
        exact .lost contest squash (Bool.not_eq_true _ ▸ one) (Bool.not_eq_true _ ▸ stay)
          priority lower
      · exact absurd ok nofun
  · exact absurd ok nofun

theorem accepts_of_obey {d : Directive} {change : Change} {items : List (Handle T)}
    (directive : Item.directive h.item = .ok (some d)) (unpinned : c.Unpinned h)
    (result : c.obey h (c.matchIndices h.item) d = (change, items)) : c.Accepts h change items := by
  cases d with
  | add => exact .enforced directive unpinned (.inl rfl) result
  | pin => exact .enforced directive unpinned (.inr (.inl rfl)) result
  | upgrade => exact .enforced directive unpinned (.inr (.inr rfl)) result
  | remove =>
      rw [obey_remove] at result
      split at result
      · next clash =>
        cases result
        exact .removed directive unpinned clash
      · next free =>
        cases result
        exact .vain directive (Bool.not_eq_true _ ▸ free)
  | fallback =>
      rw [obey_fallback] at result
      split at result
      · next clash =>
        cases result
        exact .dispensable directive unpinned clash
      · next free =>
        cases result
        exact .needed directive (Bool.not_eq_true _ ▸ free)

/-- What a chain does with a definition of the directive, when no entry in its way is pinned. -/
theorem decide_of_directive {d : Directive} (directive : Item.directive h.item = .ok (some d))
    (unpinned : c.Unpinned h) : c.decide h = .ok (c.obey h (c.matchIndices h.item) d) := by
  simp only [Chain.decide_eq, directive, show _ = none from unpinned]

/-- A chain takes in a definition in one of the ways of `Accepts`. -/
theorem accepts_of_decide {change : Change} {items : List (Handle T)}
    (ok : c.decide h = .ok (change, items)) : c.Accepts h change items := by
  rw [Chain.decide_eq] at ok
  split at ok
  · exact absurd ok nofun
  next directive is =>
  split at ok
  · exact absurd ok nofun
  · next d unpinned => exact accepts_of_obey is unpinned (Except.ok.inj ok)
  · next unpinned none =>
    cases ok
    exact .appended is (matching_eq_nil_iff.mp none)
  · next first rest unpinned entries =>
    have head : (c.matching h.item).head? = some first := by rw [entries]; rfl
    split at ok
    · next marked =>
      cases ok
      exact .outranked is unpinned head marked
    · next unmarked =>
      exact accepts_of_applyRules ⟨is, unpinned, head, Bool.not_eq_true _ ▸ unmarked⟩ ok

/-- No other way of `Accepts` applies than the one that the chain takes. -/
theorem Accepts.decide_eq {change : Change} {items : List (Handle T)}
    (accepts : c.Accepts h change items) : c.decide h = .ok (change, items) := by
  cases accepts with
  | enforced directive unpinned puts result =>
      rw [decide_of_directive directive unpinned]
      rcases puts with rfl | rfl | rfl <;> exact congrArg _ result
  | removed directive unpinned clash =>
      rw [decide_of_directive directive unpinned, obey_remove, if_pos clash]
  | vain directive free =>
      rw [decide_of_directive directive (unpinned_of_free free), obey_remove,
        if_neg (by simp [free])]
  | dispensable directive unpinned clash =>
      rw [decide_of_directive directive unpinned, obey_fallback, if_pos clash]
  | needed directive free =>
      rw [decide_of_directive directive (unpinned_of_free free), obey_fallback,
        if_neg (by simp [free])]
  | appended plain free =>
      simp only [Chain.decide_eq, plain, matching_eq_nil_iff.mpr free, List.find?_nil]
  | outranked plain unpinned head marked =>
      obtain ⟨rest, entries⟩ := List.head?_eq_some_iff.mp head
      rw [Unpinned, entries] at unpinned
      simp only [Chain.decide_eq, plain, entries, unpinned, marked, if_true]
  | squashed contest rule twin =>
      rw [contest.decide_eq, applyRules_eq contest.head, rule, twin]
      rfl
  | beside contest unsquashed rule =>
      rw [contest.decide_eq, applyRules_eq contest.head, unsquashed, rule]
      rfl
  | displaced contest unsquashed one rule result =>
      rw [contest.decide_eq, applyRules_eq contest.head, unsquashed, one, rule, ← result]
      rfl
  | won contest unsquashed one stay rule higher =>
      rw [contest.decide_eq, applyRules_eq contest.head, unsquashed, one, stay, rule]
      simp only [Bool.false_eq_true, if_false, if_true, if_pos higher]
  | lost contest unsquashed one stay rule lower =>
      rw [contest.decide_eq, applyRules_eq contest.head, unsquashed, one, stay, rule]
      simp only [Bool.false_eq_true, if_false, if_true, if_pos lower,
        if_neg (Int32.not_lt.mpr (Int32.le_of_lt lower))]

omit [Item T] in
theorem mem_replaceFirst {p : Handle T → Bool} {x : Handle T} {items : List (Handle T)} :
    x ∈ replaceFirst p h items → x ∈ items ∨ x = h := by
  induction items with
  | nil => exact fun member => .inl member
  | cons y rest ih =>
      intro member
      rw [replaceFirst] at member
      split at member
      · exact (List.mem_cons.mp member).symm.imp_left (List.mem_cons_of_mem y)
      · rcases List.mem_cons.mp member with rfl | member
        · exact .inl List.mem_cons_self
        · exact (ih member).imp_left (List.mem_cons_of_mem y)

omit [Item T] in
theorem mem_replaceFirst_self {p : Handle T → Bool} {items : List (Handle T)}
    (some_passes : items.any p = true) : h ∈ replaceFirst p h items := by
  induction items with
  | nil => exact absurd some_passes nofun
  | cons y rest ih =>
      rw [replaceFirst]
      split
      · exact List.mem_cons_self
      · next fails =>
        rw [List.any_cons, eq_false_of_ne_true fails, Bool.false_or] at some_passes
        exact List.mem_cons_of_mem y (ih some_passes)

theorem replaceAll_puts {change : Change} {items : List (Handle T)}
    (result : c.replaceAll h (c.matchIndices h.item) = (change, items)) :
    change = .added ∨ change = .replaced := by
  obtain rfl : _ = change := (Prod.ext_iff.mp result).1
  rw [replaceAll_eq]
  split
  · exact .inr rfl
  · exact .inl rfl

theorem replaceAll_ne_unchanged {items : List (Handle T)} :
    c.replaceAll h (c.matchIndices h.item) ≠ (.unchanged, items) :=
  fun result => absurd (replaceAll_puts result) (by decide)

theorem items_of_replaceAll {change : Change} {items : List (Handle T)}
    (result : c.replaceAll h (c.matchIndices h.item) = (change, items)) :
    items = c.items.filter (!c.collides h.item ·) ++ [h] := by
  rw [replaceAll_eq] at result
  exact (Prod.ext_iff.mp result).2.symm

namespace Accepts

variable {change : Change} {items : List (Handle T)}

/-- A chain holds nothing that it did not hold before but the definition. -/
theorem mem (accepts : c.Accepts h change items) {x : Handle T} (member : x ∈ items) :
    x ∈ c.items ∨ x = h := by
  have of_append {kept : List (Handle T)} (sub : ∀ y ∈ kept, y ∈ c.items)
      (member : x ∈ kept ++ [h]) : x ∈ c.items ∨ x = h := by
    rcases List.mem_append.mp member with member | member
    · exact .inl (sub x member)
    · exact .inr (List.mem_singleton.mp member)
  have of_replaceAll (result : c.replaceAll h (c.matchIndices h.item) = (change, items)) :
      x ∈ c.items ∨ x = h := by
    rw [items_of_replaceAll result] at member
    exact of_append (fun _ member => (List.mem_filter.mp member).1) member
  cases accepts with
  | enforced _ _ _ result => exact of_replaceAll result
  | removed => exact .inl (List.mem_filter.mp member).1
  | vain => exact .inl member
  | dispensable => exact .inl member
  | needed => exact of_append (fun _ => id) member
  | appended => exact of_append (fun _ => id) member
  | outranked => exact .inl member
  | squashed => exact mem_replaceFirst member
  | beside => exact of_append (fun _ => id) member
  | displaced _ _ _ _ result => exact of_replaceAll result
  | won => exact mem_replaceFirst member
  | lost => exact .inl member

/-- Only a directive can leave a chain without entries. -/
theorem ne_nil_of_plain (accepts : c.Accepts h change items)
    (plain : Item.directive h.item = .ok none) : items ≠ [] := by
  have marked {d : Directive} (directive : Item.directive h.item = .ok (some d)) : False := by
    rw [plain] at directive
    exact absurd (Except.ok.inj directive) nofun
  have of_head {first : Handle T} (head : (c.matching h.item).head? = some first) :
      c.items ≠ [] := by
    intro empty
    simp [matching, empty] at head
  have of_replaceAll (result : c.replaceAll h (c.matchIndices h.item) = (change, items)) :
      items ≠ [] := by
    rw [items_of_replaceAll result]
    exact List.append_ne_nil_of_right_ne_nil _ (List.cons_ne_nil h [])
  cases accepts with
  | enforced directive => exact (marked directive).elim
  | removed directive => exact (marked directive).elim
  | vain directive => exact (marked directive).elim
  | dispensable directive => exact (marked directive).elim
  | needed directive => exact (marked directive).elim
  | appended => exact List.append_ne_nil_of_right_ne_nil _ (List.cons_ne_nil h [])
  | outranked _ _ head => exact of_head head
  | squashed _ _ twin => exact List.ne_nil_of_mem (mem_replaceFirst_self twin)
  | beside => exact List.append_ne_nil_of_right_ne_nil _ (List.cons_ne_nil h [])
  | displaced _ _ _ _ result => exact of_replaceAll result
  | won contest =>
      exact List.ne_nil_of_mem (mem_replaceFirst_self (any_collides_of_head contest.head))
  | lost contest => exact of_head contest.head

/-- A chain that reports no change has not changed. -/
theorem items_of_unchanged (accepts : c.Accepts h .unchanged items) : items = c.items := by
  cases accepts with
  | enforced _ _ _ result => exact absurd result replaceAll_ne_unchanged
  | displaced _ _ _ _ result => exact absurd result replaceAll_ne_unchanged
  | vain => rfl
  | dispensable => rfl
  | outranked => rfl
  | lost => rfl

/-- What is reported as added or put in place of others is in the chain. -/
theorem mem_self (accepts : c.Accepts h change items)
    (put : change = .added ∨ change = .replaced) : h ∈ items := by
  have last {kept : List (Handle T)} : h ∈ kept ++ [h] :=
    List.mem_append_right _ (List.mem_singleton_self h)
  have of_replaceAll (result : c.replaceAll h (c.matchIndices h.item) = (change, items)) :
      h ∈ items := by
    rw [items_of_replaceAll result]
    exact last
  cases accepts with
  | enforced _ _ _ result => exact of_replaceAll result
  | removed => exact absurd put (by decide)
  | vain => exact absurd put (by decide)
  | dispensable => exact absurd put (by decide)
  | needed => exact last
  | appended => exact last
  | outranked => exact absurd put (by decide)
  | squashed _ _ twin => exact mem_replaceFirst_self twin
  | beside => exact last
  | displaced _ _ _ _ result => exact of_replaceAll result
  | won contest => exact mem_replaceFirst_self (any_collides_of_head contest.head)
  | lost => exact absurd put (by decide)

/-- Afterwards the definition is in the chain, or the chain has no use for it any more, in whatever
cell it comes. -/
theorem settled (accepts : c.Accepts h change items) :
    h ∈ items ∨ ∀ again : Handle T, again.item = h.item →
      Accepts { c with items } again .unchanged items := by
  by_cases put : change = .added ∨ change = .replaced
  · exact .inl (accepts.mem_self put)
  refine .inr fun ⟨_, _, _⟩ same => ?_
  subst same
  cases accepts with
  | enforced _ _ _ result => exact absurd (replaceAll_puts result) put
  | removed directive _ clash =>
      refine .vain directive ?_
      simp only [List.any_eq_false, List.mem_filter]
      rintro x ⟨-, apart⟩ collides
      exact absurd apart (by rw [show c.collides h.item x = true from collides]; nofun)
  | vain directive free => exact .vain directive free
  | dispensable directive unpinned clash => exact .dispensable directive unpinned clash
  | needed => exact absurd (.inl rfl) put
  | appended => exact absurd (.inl rfl) put
  | outranked plain unpinned head marked => exact .outranked plain unpinned head marked
  | squashed => exact absurd (.inr rfl) put
  | beside => exact absurd (.inl rfl) put
  | displaced _ _ _ _ result => exact absurd (replaceAll_puts result) put
  | won => exact absurd (.inr rfl) put
  | lost contest unsquashed one stay rule lower =>
      exact .lost ⟨contest.plain, contest.unpinned, contest.head, contest.unmarked⟩ unsquashed
        one stay rule lower

end Accepts

end HostProfile.Chain
