import HostProfile.Proofs.Chain.Exclusive
import HostProfile.Proofs.ItemTable.Weighed
import Mathlib.Data.List.Pairwise

/-!
# Chains that keep the highest priorities

Under the standard rules a chain has one entry for each key, and of the definitions without
directives that come under a key it keeps one of the highest priority. A definition puts itself
behind the others, takes the place of the entry with its key, or stands back behind it; in none of
these cases does a key lose an entry or fall to a lower priority.
-/

namespace HostProfile

variable {T : Type} [Item T] {set : ContextSet}

/-- Definitions with the same fields have one priority in the contexts. -/
theorem ContextSet.evaluateItem_eq_of_sameFields [LawfulItem T] (set : ContextSet) {a b : T}
    (same : Item.sameFields a b = true) : set.evaluateItem a = set.evaluateItem b :=
  congrArg set.evaluate (Item.eq_of_sameFields same Item.context LawfulItem.context_withPriority
    LawfulItem.context_withDerivation)

theorem Handle.WeighedIn.priority_eq [LawfulItem T] {x y : Handle T} (hx : x.WeighedIn set)
    (hy : y.WeighedIn set) (same : Item.sameFields x.item y.item = true) :
    Item.priority x.item = Item.priority y.item :=
  Except.ok.inj (hx.symm.trans ((set.evaluateItem_eq_of_sameFields same).trans hy))

/-- In a list in which all others are told apart, two that are not are one. -/
theorem eq_of_apart {α : Type} {same : α → α → Bool} (comm : ∀ a b, same a b = same b a)
    {items : List α} (apart : items.Pairwise fun a b => same a b = false) {a b : α}
    (ha : a ∈ items) (hb : b ∈ items) (alike : same a b = true) : a = b := by
  have symm : Std.Symm fun a b => same a b = false := ⟨fun a b apart => (comm b a).trans apart⟩
  refine by_contra fun other => ?_
  exact absurd alike (ne_true_of_eq_false (List.Pairwise.forall apart ha hb other))

/-- In a list without two of one key, two with one key are one. -/
theorem KeyScope.eq_of_collides (scope : KeyScope) {items : List (Handle T)}
    (apart : items.Pairwise fun x y => scope.collides x.item y.item = false) {x y : Handle T}
    (hx : x ∈ items) (hy : y ∈ items) (collides : scope.collides x.item y.item = true) :
    x = y :=
  eq_of_apart (fun x y : Handle T => KeyScope.collides_comm scope x.item y.item) apart hx hy
    collides

namespace Chain

variable {c : Chain T} {g h x y : Handle T} {change : Change} {items : List (Handle T)}

theorem carries_of_unmarked (unmarked : Item.mark x.item = none) (d : Directive) :
    carries d x = false := by
  rw [carries, Item.directive_eq_none_iff.mpr unmarked]
  rfl

theorem carriesDirective_of_unmarked (unmarked : Item.mark x.item = none) :
    carriesDirective x = false := by
  rw [carriesDirective, Item.directive_eq_none_iff.mpr unmarked]
  rfl

/-- Two entries with one key are one entry. -/
theorem Distinct.eq_of_collides (distinct : c.Distinct) (hx : x ∈ c.items) (hy : y ∈ c.items)
    (collides : c.scope.collides x.item y.item = true) : x = y :=
  c.scope.eq_of_collides distinct hx hy collides

/-- An entry with the key of the item has its priority or a higher one. -/
def Covers (c : Chain T) (item : T) : Prop :=
  ∃ x ∈ c.items, c.collides item x = true ∧ Item.priority item ≤ Item.priority x.item

/-- The first entry has the key of the item. -/
def Opens (c : Chain T) (item : T) : Prop :=
  ∃ x rest, c.items = x :: rest ∧ c.collides item x = true

/-- The second chain has every entry of the first in its place, or in its stead one with its key and
no lower priority, and new entries behind them. -/
def Raises (c c' : Chain T) : Prop :=
  ∃ kept new, c'.items = kept ++ new ∧ List.Forall₂ (fun x y => c.collides x.item y = true ∧
    Item.priority x.item ≤ Item.priority y.item) c.items kept

theorem forall₂_raises (c : Chain T) (items : List (Handle T)) :
    List.Forall₂ (fun x y => c.collides x.item y = true ∧
      Item.priority x.item ≤ Item.priority y.item) items items :=
  List.forall₂_same.mpr fun x _ => ⟨KeyScope.collides_refl c.scope x.item, Int32.le_refl _⟩

namespace Raises

variable {c' : Chain T} {item : T}

theorem refl (c : Chain T) : c.Raises c :=
  ⟨c.items, [], (List.append_nil _).symm, forall₂_raises c c.items⟩

/-- What was covered is covered still. -/
theorem covers (raises : c.Raises c') (scope : c'.scope = c.scope) (covers : c.Covers item) :
    c'.Covers item := by
  obtain ⟨kept, new, items, above⟩ := raises
  obtain ⟨x, held, same_key, le⟩ := covers
  obtain ⟨y, among, collides, higher⟩ := exists_of_forall₂ above held
  refine ⟨y, items ▸ List.mem_append_left new among, ?_, Int32.le_trans le higher⟩
  rw [Chain.collides, scope]
  exact KeyScope.collides_trans collides same_key

/-- The key that came first does so still. -/
theorem opens (raises : c.Raises c') (scope : c'.scope = c.scope) (opens : c.Opens item) :
    c'.Opens item := by
  obtain ⟨kept, new, items, above⟩ := raises
  obtain ⟨x, rest, first, same_key⟩ := opens
  rw [first, List.forall₂_cons_left_iff] at above
  obtain ⟨y, others, ⟨collides, -⟩, -, rfl⟩ := above
  refine ⟨y, others ++ new, items, ?_⟩
  rw [Chain.collides, scope]
  exact KeyScope.collides_trans collides same_key

end Raises

/-- The chain merges by the standard rules, has one entry for each key, and all of its entries are
without directives and evaluated in the contexts. -/
structure Ranked (set : ContextSet) (c : Chain T) : Prop where
  rules : c.rules = .standard
  distinct : c.Distinct
  unmarked : ∀ x ∈ c.items, Item.mark x.item = none
  weighed : ∀ x ∈ c.items, x.WeighedIn set

/-- An entry of no higher priority gives way to the definition, or one of no lower priority keeps
its place. -/
def Yields (c : Chain T) (g : Handle T) (items : List (Handle T)) : Prop :=
  ∃ x ∈ c.items, c.collides g.item x = true ∧
    ((∃ before after, c.items = before ++ x :: after ∧ items = before ++ g :: after ∧
        Item.priority x.item ≤ Item.priority g.item) ∨
      (items = c.items ∧ Item.priority g.item ≤ Item.priority x.item))

/-- What takes the place of an entry that it outranks is yielded to. -/
theorem yields_replaceFirst {p : Handle T → Bool} (some_passes : c.items.any p = true)
    (outranks : ∀ x ∈ c.items, p x = true →
      c.collides g.item x = true ∧ Item.priority x.item ≤ Item.priority g.item) :
    c.Yields g (replaceFirst p g c.items) := by
  rcases replaceFirst_eq p g c.items with same | ⟨before, x, after, passes, was, is⟩
  · have member := mem_replaceFirst_self (h := g) some_passes
    rw [same] at member ⊢
    exact ⟨g, member, KeyScope.collides_refl c.scope g.item, .inr ⟨rfl, Int32.le_refl _⟩⟩
  · have member : x ∈ c.items := was ▸ List.mem_append_right before List.mem_cons_self
    obtain ⟨collides, le⟩ := outranks x member passes
    exact ⟨x, member, collides, .inl ⟨before, after, was, is, le⟩⟩

namespace Ranked

/-- Only a definition of the same priority with other fields is refused. -/
theorem decide_eq_ok (ranked : c.Ranked set) (plain : Item.mark g.item = none)
    (apart : ∀ x ∈ c.items, c.collides g.item x = true →
      Item.sameFields x.item g.item = true ∨ Item.priority x.item ≠ Item.priority g.item) :
    ∃ change items, c.decide g = .ok (change, items) := by
  have no_directive := Item.directive_eq_none_iff.mpr plain
  cases entries : c.matching g.item with
  | nil => exact ⟨_, _, (Accepts.appended no_directive (matching_eq_nil_iff.mp entries)).decide_eq⟩
  | cons first rest =>
      have head : (c.matching g.item).head? = some first := by rw [entries]; rfl
      obtain ⟨held, collides⟩ := List.mem_filter.mp (List.mem_of_head? head)
      have contest : c.Contest g first := {
        plain := no_directive
        unpinned := List.find?_eq_none.mpr fun x among => by
          rw [carries_of_unmarked (ranked.unmarked x (List.mem_filter.mp among).1)]
          exact nofun
        head
        unmarked := carriesDirective_of_unmarked (ranked.unmarked first held) }
      have squash : c.rules.squashIdentical = true := by rw [ranked.rules]; rfl
      cases twin : c.items.any (c.identical g) with
      | true => exact ⟨_, _, (Accepts.squashed contest squash twin).decide_eq⟩
      | false =>
          have unsquashed : (c.rules.squashIdentical && c.items.any (c.identical g)) = false := by
            rw [twin, Bool.and_false]
          have one : c.rules.keepAll = false := by rw [ranked.rules]; rfl
          have stay : c.rules.replace = false := by rw [ranked.rules]; rfl
          have rule : c.rules.usePriority = true := by rw [ranked.rules]; rfl
          rcases apart first held collides with same | ne
          · have passes := List.any_eq_false.mp twin first held
            exact absurd (Bool.and_eq_true_iff.mpr ⟨collides, same⟩) passes
          · rcases Int32.lt_or_lt_of_ne ne with higher | lower
            · exact ⟨_, _, (Accepts.won contest unsquashed one stay rule higher).decide_eq⟩
            · exact ⟨_, _, (Accepts.lost contest unsquashed one stay rule lower).decide_eq⟩

/-- A chain stays of this kind when it takes in a definition of its kind. -/
theorem accepts (ranked : c.Ranked set) (plain : Item.mark g.item = none)
    (weighed : g.WeighedIn set) (accepts : c.Accepts g change items) :
    Ranked set { c with items } where
  rules := ranked.rules
  distinct := ranked.distinct.accepts (by rw [ranked.rules]; rfl) accepts
  unmarked x held := (accepts.mem held).elim (ranked.unmarked x) fun is => is ▸ plain
  weighed x held := (accepts.mem held).elim (ranked.weighed x) fun is => is ▸ weighed

variable [LawfulItem T]

/-- What a chain of this kind does with a definition of its kind. -/
theorem cases_of_accepts (ranked : c.Ranked set) (plain : Item.mark g.item = none)
    (weighed : g.WeighedIn set) (accepts : c.Accepts g change items) :
    items = c.items ++ [g] ∨ c.Yields g items := by
  have no_directive {d : Directive} (is : Item.directive g.item = .ok (some d)) : False := by
    rw [Item.directive_eq_none_iff.mpr plain] at is
    exact absurd (Except.ok.inj is) nofun
  cases accepts with
  | enforced is => exact (no_directive is).elim
  | removed is => exact (no_directive is).elim
  | vain is => exact (no_directive is).elim
  | dispensable is => exact (no_directive is).elim
  | needed is => exact (no_directive is).elim
  | appended => exact .inl rfl
  | outranked _ _ head marked =>
      have held := (List.mem_filter.mp (List.mem_of_head? head)).1
      rw [carriesDirective_of_unmarked (ranked.unmarked _ held)] at marked
      exact absurd marked nofun
  | squashed _ _ twin =>
      refine .inr (yields_replaceFirst twin fun x held identical => ?_)
      obtain ⟨collides, same⟩ := Bool.and_eq_true_iff.mp identical
      exact ⟨collides, Int32.le_of_eq ((ranked.weighed x held).priority_eq weighed same)⟩
  | beside _ _ rule =>
      rw [ranked.rules] at rule
      exact absurd rule nofun
  | displaced _ _ _ rule =>
      rw [ranked.rules] at rule
      exact absurd rule nofun
  | won contest _ _ _ _ higher =>
      obtain ⟨held, collides⟩ := List.mem_filter.mp (List.mem_of_head? contest.head)
      refine .inr (yields_replaceFirst (any_collides_of_head contest.head) fun x held' collides' =>
        ⟨collides', ?_⟩)
      have both := KeyScope.collides_trans (c := x.item) collides
        ((KeyScope.collides_comm ..).trans collides')
      rw [← ranked.distinct.eq_of_collides held held' both]
      exact Int32.le_of_lt higher
  | lost contest _ _ _ _ lower =>
      obtain ⟨held, collides⟩ := List.mem_filter.mp (List.mem_of_head? contest.head)
      exact .inr ⟨_, held, collides, .inr ⟨rfl, Int32.le_of_lt lower⟩⟩

/-- What is taken in is covered, and no key falls to a lower priority. -/
theorem raises_of_accepts (ranked : c.Ranked set) (plain : Item.mark g.item = none)
    (weighed : g.WeighedIn set) (accepts : c.Accepts g change items) :
    Covers { c with items } g.item ∧ c.Raises { c with items } := by
  have own : c.collides g.item g = true := KeyScope.collides_refl c.scope g.item
  rcases ranked.cases_of_accepts plain weighed accepts with
    rfl | ⟨x, held, collides, ⟨before, after, was, rfl, le⟩ | ⟨rfl, le⟩⟩
  · have last : g ∈ c.items ++ [g] := List.mem_append_right _ (List.mem_singleton_self g)
    exact ⟨⟨g, last, own, Int32.le_refl _⟩, c.items, [g], rfl, forall₂_raises c c.items⟩
  · have present : g ∈ before ++ g :: after := List.mem_append_right _ List.mem_cons_self
    refine ⟨⟨g, present, own, Int32.le_refl _⟩, before ++ g :: after, [], ?_, ?_⟩
    · exact (List.append_nil _).symm
    · rw [was]
      refine List.rel_append (forall₂_raises c before) (.cons ⟨?_, le⟩ (forall₂_raises c after))
      exact (KeyScope.collides_comm ..).trans collides
  · exact ⟨⟨x, held, collides, le⟩, .refl c⟩

/-- A definition without a directive is merged, unless an entry with its key and its priority has
other fields. Then it is covered, and no key has fallen to a lower priority. -/
theorem merge (ranked : c.Ranked set) {priority : Int32}
    (value : set.evaluateItem h.item = .ok priority) (plain : Item.mark h.item = none)
    (one : ∀ x ∈ c.items, x.cell = h.cell → x = h)
    (apart : ∀ x ∈ c.items, c.collides h.item x = true →
      Item.sameFields x.item h.item = true ∨ Item.priority x.item ≠ priority)
    (supply : Supply) :
    let o := Chain.merge (some set) h c supply
    (∃ change, o.result = .ok change) ∧ o.state.Ranked set ∧
      o.state.Covers (Item.withPriority h.item priority) ∧ c.Raises o.state := by
  have weighed := Handle.weighedIn_atPriority value supply
  have item := h.item_atPriority priority supply
  intro o
  simp only [o, merge_eq, priorityIn_some, value]
  split
  · next found =>
    obtain ⟨x, held, same_cell⟩ := List.any_eq_true.mp found
    obtain rfl := one x held (beq_iff_eq.mp same_cell)
    obtain rfl := Except.ok.inj (value.symm.trans (ranked.weighed x held))
    refine ⟨⟨_, rfl⟩, ranked, ?_, .refl c⟩
    rw [LawfulItem.withPriority_priority]
    exact ⟨x, held, KeyScope.collides_refl c.scope x.item, Int32.le_refl _⟩
  split
  · next found =>
    obtain ⟨x, held, copies⟩ := List.any_eq_true.mp found.2
    obtain ⟨same, fields⟩ := Bool.and_eq_true_iff.mp copies
    obtain ⟨same, -⟩ := Bool.and_eq_true_iff.mp same
    rw [← item]
    exact ⟨⟨_, rfl⟩, ranked, ⟨x, held, KeyScope.collides_of_sameFields c.scope fields,
      Int32.le_of_eq (beq_iff_eq.mp same).symm⟩, .refl c⟩
  · have unmarked : Item.mark (h.atPriority priority supply).1.item = none := by
      rw [item, LawfulItem.mark_withPriority]
      exact plain
    obtain ⟨change, items, decision⟩ := ranked.decide_eq_ok unmarked fun x held collides => by
      rw [item] at collides ⊢
      rw [Chain.collides, KeyScope.collides_withPriority_right] at collides
      rw [Item.sameFields_withPriority_right, LawfulItem.priority_withPriority]
      exact apart x held collides
    have accepts := accepts_of_decide decision
    rw [settle_eq, decision, ← item]
    exact ⟨⟨change, rfl⟩, ranked.accepts unmarked weighed accepts,
      ranked.raises_of_accepts unmarked weighed accepts⟩

end Ranked

end Chain

end HostProfile
