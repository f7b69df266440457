import HostProfile.Proofs.Chain.Merge
import Mathlib.Data.List.Basic

/-!
# What a decision depends on

A chain decides by the items of its entries, and only by those that can have the key of the
definition. So the decision is the same when all handles are moved to other cells (`relabel`), and
when the entries of one kind are looked at apart from the others (`part`), as long as no entry of
another kind collides with the definition. Only messages name the key of the chain.
-/

namespace HostProfile

/-- The error, as a chain of another key would report it. -/
def MergeError.withKey (key : String) : MergeError → MergeError
  | .conflict kind _ existing candidate => .conflict kind key existing candidate
  | .pinned _ existing candidate => .pinned key existing candidate
  | .item cause => .item cause
  | .config cause => .config cause
  | .capacity refused buckets => .capacity refused buckets

namespace Chain

variable {T : Type} [Item T] {c : Chain T} {h : Handle T}

/-! ## Other cells -/

/-- The chain with its handles in other cells. -/
def relabel (f : Handle T → Handle T) (c : Chain T) : Chain T := { c with items := c.items.map f }

/-- The decision with the handles in other cells. -/
def Decision.relabel (f : Handle T → Handle T) : Decision T → Decision T :=
  Except.map fun outcome => (outcome.1, outcome.2.map f)

section

variable {f : Handle T → Handle T}

omit [Item T] in
theorem map_replaceFirst {p : Handle T → Bool} (same : ∀ x, p (f x) = p x)
    (items : List (Handle T)) :
    replaceFirst p (f h) (items.map f) = (replaceFirst p h items).map f := by
  induction items with
  | nil => rfl
  | cons x rest ih =>
      rw [List.map_cons, replaceFirst, replaceFirst, same, ih]
      split <;> rfl

omit [Item T] in
theorem filter_map_of_same {p : Handle T → Bool} (same : ∀ x, p (f x) = p x)
    (items : List (Handle T)) : (items.map f).filter p = (items.filter p).map f := by
  rw [List.filter_map]
  exact congrArg (fun q => (items.filter q).map f) (funext same)

omit [Item T] in
theorem any_map_of_same {p : Handle T → Bool} (same : ∀ x, p (f x) = p x)
    (items : List (Handle T)) : (items.map f).any p = items.any p := by
  rw [List.any_map]
  exact congrArg (items.any ·) (funext same)

omit [Item T] in
theorem find?_map_of_same {p : Handle T → Bool} (same : ∀ x, p (f x) = p x)
    (items : List (Handle T)) : (items.map f).find? p = (items.find? p).map f := by
  rw [List.find?_map]
  exact congrArg (fun q => (items.find? q).map f) (funext same)

variable (keeps : ∀ x, (f x).item = x.item)

include keeps

theorem collides_relabel (item : T) (x : Handle T) : c.collides item (f x) = c.collides item x := by
  rw [collides, keeps]
  rfl

theorem carries_relabel (d : Directive) (x : Handle T) : carries d (f x) = carries d x := by
  rw [carries, keeps]
  rfl

theorem carriesDirective_relabel (x : Handle T) : carriesDirective (f x) = carriesDirective x := by
  rw [carriesDirective, keeps]
  rfl

theorem matching_relabel (item : T) :
    (c.relabel f).matching item = (c.matching item).map f :=
  filter_map_of_same (fun x => collides_relabel keeps item x) c.items

theorem replaceAll_relabel (c : Chain T) (h : Handle T) :
    (c.relabel f).replaceAll (f h) ((c.relabel f).matchIndices (f h).item) =
      ((c.replaceAll h (c.matchIndices h.item)).1,
        (c.replaceAll h (c.matchIndices h.item)).2.map f) := by
  have same (x : Handle T) : c.collides h.item (f x) = c.collides h.item x :=
    collides_relabel keeps h.item x
  rw [replaceAll_eq, replaceAll_eq]
  simp only [relabel, keeps]
  refine Prod.ext ?_ ?_
  · exact congrArg (fun b : Bool => if b then Change.replaced else Change.added)
      (any_map_of_same same c.items)
  · rw [List.map_append, List.map_singleton]
    exact congrArg (· ++ [f h]) (filter_map_of_same (fun x => congrArg (!·) (same x)) c.items)

theorem obey_relabel (c : Chain T) (h : Handle T) (d : Directive) :
    (c.relabel f).obey (f h) ((c.relabel f).matchIndices (f h).item) d =
      ((c.obey h (c.matchIndices h.item) d).1,
        (c.obey h (c.matchIndices h.item) d).2.map f) := by
  have same (x : Handle T) : c.collides h.item (f x) = c.collides h.item x :=
    collides_relabel keeps h.item x
  have clash : (c.relabel f).items.any ((c.relabel f).collides (f h).item) =
      c.items.any (c.collides h.item) := by
    rw [keeps]
    exact any_map_of_same same c.items
  cases d with
  | add => exact replaceAll_relabel keeps c h
  | pin => exact replaceAll_relabel keeps c h
  | upgrade => exact replaceAll_relabel keeps c h
  | remove =>
      simp only [obey_remove, clash]
      split
      · simp only [relabel, keeps]
        exact congrArg _ (filter_map_of_same (fun x => congrArg (!·) (same x)) c.items)
      · rfl
  | fallback =>
      simp only [obey_fallback, clash]
      split
      · rfl
      · simp only [relabel, List.map_append, List.map_singleton]

theorem identical_relabel (c : Chain T) (h : Handle T) :
    (c.relabel f).identical (f h) = c.identical h := by
  funext x
  simp only [identical, keeps]
  rfl

theorem identical_same (c : Chain T) (h x : Handle T) :
    c.identical h (f x) = c.identical h x := by
  simp only [identical, keeps, collides_relabel keeps]

theorem applyRules_relabel (c : Chain T) {h first : Handle T}
    (head : (c.matching h.item).head? = some first) :
    (c.relabel f).applyRules (f h) ((c.relabel f).matchIndices (f h).item) =
      Decision.relabel f (c.applyRules h (c.matchIndices h.item)) := by
  have head' : ((c.relabel f).matching (f h).item).head? = some (f first) := by
    rw [keeps, matching_relabel keeps, List.head?_map, head]
    rfl
  have any_twin : (c.relabel f).items.any (c.identical h) = c.items.any (c.identical h) :=
    any_map_of_same (identical_same keeps c h) c.items
  have squashed : replaceFirst (c.identical h) (f h) (c.relabel f).items =
      (replaceFirst (c.identical h) h c.items).map f :=
    map_replaceFirst (identical_same keeps c h) c.items
  have won : replaceFirst ((c.relabel f).collides h.item) (f h) (c.relabel f).items =
      (replaceFirst (c.collides h.item) h c.items).map f :=
    map_replaceFirst (collides_relabel keeps h.item) c.items
  have beside : (c.relabel f).items ++ [f h] = (c.items ++ [h]).map f := by
    rw [List.map_append, List.map_singleton]
    rfl
  rw [applyRules_eq head', applyRules_eq head, identical_relabel keeps, any_twin, squashed,
    beside, replaceAll_relabel keeps]
  simp only [keeps, won, conflict, apply_ite (Decision.relabel f)]
  rfl

/-- Moving the handles to other cells moves the outcome of a decision to these cells. -/
theorem decide_relabel (c : Chain T) (h : Handle T) :
    (c.relabel f).decide (f h) = Decision.relabel f (c.decide h) := by
  have ruled {first : Handle T} (head : (c.matching h.item).head? = some first) :=
    applyRules_relabel keeps c head
  have obeyed := obey_relabel keeps c h
  rw [decide_eq, decide_eq]
  rw [keeps] at ruled obeyed ⊢
  cases Item.directive h.item with
  | error e => rfl
  | ok directive =>
      simp only [matching_relabel keeps, find?_map_of_same (carries_relabel keeps .pin)]
      cases (c.matching h.item).find? (carries .pin) with
      | some pinned =>
          simp only [Option.map_some, keeps]
          rfl
      | none =>
          simp only [Option.map_none]
          cases directive with
          | some d => exact congrArg _ (obeyed d)
          | none =>
              cases entries : c.matching h.item with
              | nil =>
                  simp only [List.map_nil, relabel, Decision.relabel, Except.map,
                    List.map_append, List.map_singleton]
              | cons first rest =>
                  simp only [List.map_cons, carriesDirective_relabel keeps]
                  split
                  · rfl
                  · exact ruled (by rw [entries]; rfl)

end

/-! ## Other entries -/

/-- The chain with the entries of one kind only, under a key of its own. -/
def part (key : String) (p : Handle T → Bool) (c : Chain T) : Chain T :=
  { c with key, items := c.items.filter p }

/-- The decision as the chain of the entries of one kind makes it. -/
def Decision.part (key : String) (p : Handle T → Bool) : Decision T → Decision T
  | .ok (change, items) => .ok (change, items.filter p)
  | .error e => .error (e.withKey key)

section

variable {p : Handle T → Bool} {key : String}

omit [Item T] in
theorem any_filter_of_imp {q : Handle T → Bool} (closed : ∀ x, q x = true → p x = true)
    (items : List (Handle T)) : (items.filter p).any q = items.any q := by
  rw [List.any_filter]
  congr 1
  funext x
  cases passes : q x with
  | false => rw [Bool.and_false]
  | true => rw [closed x passes, Bool.true_and]

omit [Item T] in
theorem filter_filter_of_imp {q : Handle T → Bool} (closed : ∀ x, q x = true → p x = true)
    (items : List (Handle T)) : (items.filter p).filter q = items.filter q := by
  rw [List.filter_filter]
  congr 1
  funext x
  cases passes : q x with
  | false => rw [Bool.false_and]
  | true => rw [closed x passes, Bool.true_and]

omit [Item T] in
theorem filter_append_self (own : p h = true) (items : List (Handle T)) :
    (items ++ [h]).filter p = items.filter p ++ [h] := by
  rw [List.filter_append, List.filter_cons_of_pos own, List.filter_nil]

omit [Item T] in
theorem replaceFirst_filter {q : Handle T → Bool} (own : p h = true)
    (closed : ∀ x, q x = true → p x = true) (items : List (Handle T)) :
    replaceFirst q h (items.filter p) = (replaceFirst q h items).filter p := by
  induction items with
  | nil => rfl
  | cons x rest ih =>
      cases passes : q x with
      | true =>
          have inside := closed x passes
          simp only [List.filter_cons, replaceFirst, inside, passes, own, if_true]
      | false =>
          cases inside : p x with
          | true => simp [replaceFirst, passes, inside, ih]
          | false => simp [replaceFirst, passes, inside, ih]

omit [Item T] in
theorem append_part (own : p h = true) :
    (c.part key p).items ++ [h] = (c.items ++ [h]).filter p :=
  (filter_append_self own c.items).symm

variable (own : p h = true) (closed : ∀ x, c.collides h.item x = true → p x = true)

include closed

theorem matching_part : (c.part key p).matching h.item = c.matching h.item :=
  filter_filter_of_imp closed c.items

theorem any_collides_part :
    (c.part key p).items.any ((c.part key p).collides h.item) = c.items.any (c.collides h.item) :=
  any_filter_of_imp closed c.items

theorem any_identical_part :
    (c.part key p).items.any ((c.part key p).identical h) = c.items.any (c.identical h) :=
  any_filter_of_imp (fun x twin => closed x (Bool.and_eq_true_iff.mp twin).1) c.items

include own

theorem replaceAll_part :
    (c.part key p).replaceAll h ((c.part key p).matchIndices h.item) =
      ((c.replaceAll h (c.matchIndices h.item)).1,
        (c.replaceAll h (c.matchIndices h.item)).2.filter p) := by
  rw [replaceAll_eq, replaceAll_eq]
  refine Prod.ext ?_ ?_
  · simp only [any_collides_part closed]
  · simp only [filter_append_self own]
    exact congrArg (· ++ [h]) (List.filter_comm ..)

theorem obey_part (d : Directive) :
    (c.part key p).obey h ((c.part key p).matchIndices h.item) d =
      ((c.obey h (c.matchIndices h.item) d).1,
        (c.obey h (c.matchIndices h.item) d).2.filter p) := by
  cases d with
  | add => exact replaceAll_part own closed
  | pin => exact replaceAll_part own closed
  | upgrade => exact replaceAll_part own closed
  | remove =>
      simp only [obey_remove, any_collides_part closed]
      split
      · exact congrArg _ (List.filter_comm ..)
      · rfl
  | fallback =>
      simp only [obey_fallback, any_collides_part closed, append_part own]
      split <;> rfl

theorem applyRules_part {first : Handle T} (head : (c.matching h.item).head? = some first) :
    (c.part key p).applyRules h ((c.part key p).matchIndices h.item) =
      Decision.part key p (c.applyRules h (c.matchIndices h.item)) := by
  have head' : ((c.part key p).matching h.item).head? = some first := by
    rw [matching_part closed, head]
  have squashed : replaceFirst ((c.part key p).identical h) h (c.part key p).items =
      (replaceFirst (c.identical h) h c.items).filter p :=
    replaceFirst_filter own (fun x twin => closed x (Bool.and_eq_true_iff.mp twin).1) c.items
  have won : replaceFirst ((c.part key p).collides h.item) h (c.part key p).items =
      (replaceFirst (c.collides h.item) h c.items).filter p :=
    replaceFirst_filter own closed c.items
  rw [applyRules_eq head', applyRules_eq head, any_identical_part closed, squashed, won,
    append_part own, replaceAll_part own closed]
  simp only [apply_ite (Decision.part key p)]
  rfl

/-- The entries of one kind decide alone about a definition that collides with no others. -/
theorem decide_part : (c.part key p).decide h = Decision.part key p (c.decide h) := by
  rw [decide_eq, decide_eq, matching_part closed]
  cases Item.directive h.item with
  | error e => rfl
  | ok directive =>
      dsimp only
      cases (c.matching h.item).find? (carries .pin) with
      | some pinned => rfl
      | none =>
          cases directive with
          | some d => exact congrArg _ (obey_part own closed d)
          | none =>
              cases entries : c.matching h.item with
              | nil =>
                  dsimp only
                  rw [append_part own]
                  rfl
              | cons first rest =>
                  dsimp only
                  split
                  · rfl
                  · exact applyRules_part own closed (by rw [entries]; rfl)

end

omit [Item T] in
theorem filter_replaceFirst {p q : Handle T → Bool} (other : q h = false)
    (apart : ∀ x, p x = true → q x = false) (items : List (Handle T)) :
    (replaceFirst p h items).filter q = items.filter q := by
  induction items with
  | nil => rfl
  | cons x rest ih =>
      rw [replaceFirst]
      split
      · next passes =>
        rw [List.filter_cons_of_neg (by simp [other]),
          List.filter_cons_of_neg (by simp [apart x passes])]
      · rw [List.filter_cons, List.filter_cons, ih]

/-- Entries of a kind that cannot collide with the definition stay as they are. -/
theorem Accepts.filter_other {change : Change} {items : List (Handle T)} {q : Handle T → Bool}
    (accepts : c.Accepts h change items) (other : q h = false)
    (apart : ∀ x, c.collides h.item x = true → q x = false) :
    items.filter q = c.items.filter q := by
  have of_append (kept : List (Handle T)) : (kept ++ [h]).filter q = kept.filter q := by
    rw [List.filter_append, List.filter_cons_of_neg (by simp [other]), List.filter_nil,
      List.append_nil]
  have of_filter : (c.items.filter (!c.collides h.item ·)).filter q = c.items.filter q := by
    refine filter_filter_of_imp (fun x passes => ?_) c.items
    cases collides : c.collides h.item x with
    | false => rfl
    | true => rw [apart x collides] at passes; exact absurd passes nofun
  have of_replaceAll (result : c.replaceAll h (c.matchIndices h.item) = (change, items)) :
      items.filter q = c.items.filter q := by
    rw [items_of_replaceAll result, of_append, of_filter]
  cases accepts with
  | enforced _ _ _ result => exact of_replaceAll result
  | removed => exact of_filter
  | vain => rfl
  | dispensable => rfl
  | needed => exact of_append c.items
  | appended => exact of_append c.items
  | outranked => rfl
  | squashed =>
      exact filter_replaceFirst other (fun x twin => apart x (Bool.and_eq_true_iff.mp twin).1)
        c.items
  | beside => exact of_append c.items
  | displaced _ _ _ _ result => exact of_replaceAll result
  | won => exact filter_replaceFirst other apart c.items
  | lost => rfl

end Chain

end HostProfile
