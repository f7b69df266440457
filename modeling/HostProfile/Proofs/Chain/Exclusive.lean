import HostProfile.Proofs.Chain.Reachable

/-!
# Entries that stand alone

A definition joins the entries with its key only where the rules keep all definitions. In every
other case it takes the place of such an entry, or of all of them, or there is none. Two properties
of reachable chains follow: an entry with a directive is the only one with its key, whatever the
rules, and where the rules do not keep all definitions every entry is.
-/

namespace HostProfile.Chain

variable {T : Type} [Item T] {c : Chain T} {h : Handle T}

/-! ## Putting a definition in -/

omit [Item T] in
/-- Either one of the handles passes the test and gives way, or none does and nothing happens. -/
theorem replaceFirst_eq (p : Handle T → Bool) (h : Handle T) (items : List (Handle T)) :
    replaceFirst p h items = items ∨ ∃ before x after, p x = true ∧
      items = before ++ x :: after ∧ replaceFirst p h items = before ++ h :: after := by
  induction items with
  | nil => exact .inl rfl
  | cons y rest ih =>
      rw [replaceFirst]
      split
      · next passes => exact .inr ⟨[], y, rest, passes, rfl, rfl⟩
      · rcases ih with same | ⟨before, x, after, passes, was, is⟩
        · exact .inl (by rw [same])
        · exact .inr ⟨y :: before, x, after, passes, by rw [was, List.cons_append],
            by rw [is, List.cons_append]⟩

omit [Item T] in
/-- A relation between the entries is kept when an entry gives way to one with the same
relations. -/
theorem pairwise_replaceFirst {R : Handle T → Handle T → Prop} (symm : ∀ {x y}, R x y → R y x)
    {p : Handle T → Bool} (instead : ∀ x y, p x = true → R x y → R h y)
    {items : List (Handle T)} (pairwise : items.Pairwise R) :
    (replaceFirst p h items).Pairwise R := by
  rcases replaceFirst_eq p h items with same | ⟨before, x, after, passes, was, is⟩
  · rw [same]
    exact pairwise
  · rw [was, List.pairwise_middle symm, List.pairwise_cons] at pairwise
    rw [is, List.pairwise_middle symm, List.pairwise_cons]
    refine ⟨?_, pairwise.2⟩
    intro y member
    exact instead x y passes (pairwise.1 y member)

omit [Item T] in
theorem pairwise_concat {R : Handle T → Handle T → Prop} {items : List (Handle T)}
    (pairwise : items.Pairwise R) (last : ∀ x ∈ items, R x h) : (items ++ [h]).Pairwise R := by
  rw [List.pairwise_append]
  refine ⟨pairwise, List.pairwise_singleton R h, ?_⟩
  intro x member y is
  rw [List.mem_singleton.mp is]
  exact last x member

/-- What a merge has to leave of a relation between the entries: it holds for entries with another
key, for a definition in the place of an entry, and beside the entries with its key, where the
rules keep all. -/
theorem Accepts.pairwise {R : Handle T → Handle T → Prop} {change : Change}
    {items : List (Handle T)} (accepts : c.Accepts h change items)
    (symm : ∀ {x y}, R x y → R y x) (apart : ∀ x, c.collides h.item x = false → R x h)
    (instead : Item.directive h.item = .ok none → ∀ x y, c.collides h.item x = true → R x y → R h y)
    (beside : ∀ first, c.Contest h first → c.rules.keepAll = true → ∀ x ∈ c.items, R x h)
    (pairwise : c.items.Pairwise R) : items.Pairwise R := by
  have cleared : (c.items.filter (!c.collides h.item ·)).Pairwise R := pairwise.filter _
  have alone (free : c.items.any (c.collides h.item) = false) : (c.items ++ [h]).Pairwise R := by
    apply pairwise_concat pairwise
    intro x member
    exact apart x (eq_false_of_ne_true (List.any_eq_false.mp free x member))
  have of_replaceAll (result : c.replaceAll h (c.matchIndices h.item) = (change, items)) :
      items.Pairwise R := by
    rw [items_of_replaceAll result]
    apply pairwise_concat cleared
    intro x member
    exact apart x (Bool.not_eq_true' _ |>.mp (List.mem_filter.mp member).2)
  cases accepts with
  | enforced _ _ _ result => exact of_replaceAll result
  | removed => exact cleared
  | vain => exact pairwise
  | dispensable => exact pairwise
  | needed _ free => exact alone free
  | appended _ free => exact alone free
  | outranked => exact pairwise
  | squashed contest =>
      refine pairwise_replaceFirst symm (fun x y twin => ?_) pairwise
      exact instead contest.plain x y (Bool.and_eq_true_iff.mp twin).1
  | beside contest _ rule => exact pairwise_concat pairwise (beside _ contest rule)
  | displaced _ _ _ _ result => exact of_replaceAll result
  | won contest => exact pairwise_replaceFirst symm (instead contest.plain) pairwise
  | lost => exact pairwise

/-- A chain does not take in a definition whose directive is malformed, or one that only removes
others. -/
theorem Accepts.directive {change : Change} {items : List (Handle T)}
    (accepts : c.Accepts h change items) :
    (∀ x ∈ items, x ∈ c.items) ∨ ∃ d, Item.directive h.item = .ok d ∧ d ≠ some .remove := by
  cases accepts with
  | enforced directive _ puts =>
      refine .inr ⟨_, directive, ?_⟩
      rcases puts with rfl | rfl | rfl <;> decide
  | removed => exact .inl fun _ member => (List.mem_filter.mp member).1
  | vain => exact .inl fun _ => id
  | dispensable => exact .inl fun _ => id
  | needed directive => exact .inr ⟨_, directive, by decide⟩
  | appended plain => exact .inr ⟨_, plain, nofun⟩
  | outranked => exact .inl fun _ => id
  | squashed contest => exact .inr ⟨_, contest.plain, nofun⟩
  | beside contest => exact .inr ⟨_, contest.plain, nofun⟩
  | displaced contest => exact .inr ⟨_, contest.plain, nofun⟩
  | won contest => exact .inr ⟨_, contest.plain, nofun⟩
  | lost => exact .inl fun _ => id

/-! ## Entries with directives -/

/-- The two have different keys, or neither carries a directive. -/
def Exclusive (scope : KeyScope) (a b : T) : Prop :=
  scope.collides a b = true → Item.mark a = none ∧ Item.mark b = none

theorem Exclusive.symm {scope : KeyScope} {a b : T} (exclusive : Exclusive scope a b) :
    Exclusive scope b a := by
  intro collides
  rw [KeyScope.collides_comm] at collides
  exact (exclusive collides).symm

theorem steady_exclusive [LawfulItem T] (scope : KeyScope) :
    Steady (Exclusive (T := T) scope) where
  symm := Exclusive.symm
  withPriority p exclusive := by
    intro collides
    rw [KeyScope.collides_withPriority_left] at collides
    rw [LawfulItem.mark_withPriority]
    exact exclusive collides

/-- A definition with a directive that excludes the others is alone with its key. -/
theorem filter_collides_eq_singleton {scope : KeyScope} {items : List (Handle T)}
    (exclusive : items.Pairwise fun x y => Exclusive scope x.item y.item) {x : Handle T}
    (member : x ∈ items) (marked : Item.mark x.item ≠ none) :
    items.filter (fun y => scope.collides y.item x.item) = [x] := by
  obtain ⟨before, after, rfl⟩ := List.append_of_mem member
  rw [List.pairwise_middle Exclusive.symm, List.pairwise_cons] at exclusive
  have apart (y : Handle T) (other : y ∈ before ++ after) :
      ¬ scope.collides y.item x.item = true := by
    intro collides
    rw [KeyScope.collides_comm] at collides
    exact marked (exclusive.1 y other collides).1
  have none_before : before.filter (fun y => scope.collides y.item x.item) = [] :=
    List.filter_eq_nil_iff.mpr fun y other => apart y (List.mem_append_left _ other)
  have none_after : after.filter (fun y => scope.collides y.item x.item) = [] :=
    List.filter_eq_nil_iff.mpr fun y other => apart y (List.mem_append_right _ other)
  rw [List.filter_append, List.filter_cons, if_pos (KeyScope.collides_refl scope x.item),
    none_before, none_after, List.nil_append]

/-- The entries with one key are the same for all definitions with this key. -/
theorem matching_congr {a b : T} (collides : c.scope.collides a b = true) :
    c.matching a = c.matching b := by
  unfold matching
  congr 1
  funext x
  show c.scope.collides x.item a = c.scope.collides x.item b
  rw [KeyScope.collides_comm, KeyScope.collides_congr collides, KeyScope.collides_comm]

/-- Every entry has a directive that lets it stay, or none, and one that has a directive is alone
with its key. -/
structure Orderly (c : Chain T) : Prop where
  directed : ∀ x ∈ c.items, ∃ d, Item.directive x.item = .ok d ∧ d ≠ some .remove
  exclusive : c.AllRelated (Exclusive c.scope)

namespace Orderly

theorem matching_eq (orderly : c.Orderly) {x : Handle T} (member : x ∈ c.items)
    (marked : Item.mark x.item ≠ none) : c.matching x.item = [x] :=
  filter_collides_eq_singleton orderly.exclusive member marked

/-- Where the first entry with a key has no directive, none of them has. -/
theorem mark_eq_none_of_contest (orderly : c.Orderly) {first : Handle T}
    (contest : c.Contest h first) {x : Handle T} (member : x ∈ c.items)
    (collides : c.collides h.item x = true) : Item.mark x.item = none := by
  apply Decidable.byContradiction
  intro marked
  have head := contest.head
  rw [← matching_congr collides, orderly.matching_eq member marked] at head
  obtain rfl : x = first := Option.some.inj head
  obtain ⟨d, directive, -⟩ := orderly.directed x member
  have unmarked := contest.unmarked
  rw [carriesDirective, directive] at unmarked
  cases d with
  | none => exact marked (Item.directive_eq_none_iff.mp directive)
  | some d => exact absurd unmarked nofun

theorem accepts (orderly : c.Orderly) {g : Handle T} {change : Change} {items : List (Handle T)}
    (accepts : c.Accepts g change items) : Orderly { c with items } where
  directed x member := by
    rcases accepts.directive with old | directed
    · exact orderly.directed x (old x member)
    · rcases accepts.mem member with old | rfl
      · exact orderly.directed x old
      · exact directed
  exclusive := by
    refine accepts.pairwise Exclusive.symm ?_ ?_ ?_ orderly.exclusive
    · intro x apart collides
      exact absurd (apart.symm.trans collides) Bool.false_ne_true
    · intro plain x y collides exclusive same_key
      refine ⟨Item.directive_eq_none_iff.mp plain, ?_⟩
      exact (exclusive (KeyScope.collides_trans collides same_key)).2
    · intro first contest _ x member collides
      exact ⟨orderly.mark_eq_none_of_contest contest member collides,
        Item.directive_eq_none_iff.mp contest.plain⟩

theorem sort [LawfulItem T] (orderly : c.Orderly) : c.sort.Orderly where
  directed x member := orderly.directed x (mem_sort.mp member)
  exclusive := orderly.exclusive.sort (steady_exclusive c.scope)

theorem prune (orderly : c.Orderly) : c.prune.Orderly where
  directed x member := orderly.directed x (List.mem_filter.mp member).1
  exclusive := orderly.exclusive.prune

theorem reevaluate [LawfulItem T] (orderly : c.Orderly) (set : ContextSet) (supply : Supply) :
    (Chain.reevaluate set c supply).state.Orderly where
  directed y member := by
    obtain ⟨x, old, version⟩ := exists_version_of_mem_reevaluate member
    rw [version.directive_eq]
    exact orderly.directed x old
  exclusive := orderly.exclusive.reevaluate (steady_exclusive c.scope) set supply

end Orderly

variable {allowed : MergeRules → Prop}

theorem ReachableBy.orderly [LawfulItem T] (reachable : c.ReachableBy allowed) : c.Orderly := by
  induction reachable with
  | empty => exact ⟨nofun, .nil⟩
  | merge contexts h supply _ orderly =>
      exact merge_keeps orderly (fun _ _ _ accepts => orderly.accepts accepts) contexts h supply
  | setRules _ _ orderly => exact ⟨orderly.directed, orderly.exclusive⟩
  | sort _ orderly => exact orderly.sort
  | prune _ orderly => exact orderly.prune
  | reevaluate set supply _ orderly => exact orderly.reevaluate set supply

/-! ## Entries under rules that keep one -/

/-- No two entries have one key. -/
abbrev Distinct (c : Chain T) : Prop := c.AllRelated fun a b => c.scope.collides a b = false

theorem steady_apart [LawfulItem T] (scope : KeyScope) :
    Steady fun a b : T => scope.collides a b = false where
  symm apart := (KeyScope.collides_comm ..).trans apart
  withPriority _ apart := (KeyScope.collides_withPriority_left ..).trans apart

theorem Distinct.accepts {g : Handle T} {change : Change} {items : List (Handle T)}
    (distinct : c.Distinct) (one : c.rules.keepAll = false) (accepts : c.Accepts g change items) :
    Distinct { c with items } := by
  refine accepts.pairwise (fun apart => (KeyScope.collides_comm ..).trans apart) ?_ ?_ ?_ distinct
  · exact fun x apart => apart
  · intro _ x y collides apart
    exact (KeyScope.collides_congr collides y.item).symm.trans apart
  · intro first _ rule
    exact absurd (one.symm.trans rule) Bool.false_ne_true

/-- Where no rules come into force that keep all definitions, a chain has one for each key. -/
theorem ReachableBy.distinct [LawfulItem T]
    (reachable : c.ReachableBy fun rules => rules.keepAll = false) : c.Distinct := by
  induction reachable with
  | empty => exact .nil
  | merge contexts h supply before distinct =>
      exact merge_keeps distinct
        (fun _ _ _ accepts => distinct.accepts before.rules accepts) contexts h supply
  | setRules _ _ distinct => exact distinct
  | sort _ distinct => exact distinct.sort (steady_apart _)
  | prune _ distinct => exact distinct.prune
  | reevaluate set supply _ distinct => exact distinct.reevaluate (steady_apart _) set supply

end HostProfile.Chain
