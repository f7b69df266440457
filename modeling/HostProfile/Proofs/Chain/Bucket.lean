import HostProfile.Proofs.Chain.Local

/-!
# Merges under one bucket key

A definition that is merged into a chain meets only entries with its bucket key, so that merging it
into these alone comes to the same. Nor does it matter in which new cells the copies lie that the
chain has made: only the cells of handles from outside are ever compared.
-/

namespace HostProfile

variable {T : Type} [Item T]

namespace Handle

/-- The handle with a cell that stands for all cells from `base` on. -/
def blur (base : Cell) (x : Handle T) : Handle T :=
  if x.cell < base then x else { x with cell := base }

variable {base : Cell} {h : Handle T}

omit [Item T] in
@[simp] theorem item_blur (base : Cell) (x : Handle T) : (x.blur base).item = x.item := by
  unfold blur
  split <;> rfl

omit [Item T] in
@[simp] theorem origin_blur (base : Cell) (x : Handle T) : (x.blur base).origin = x.origin := by
  unfold blur
  split <;> rfl

omit [Item T] in
theorem same_blur (old : h.cell < base) (x : Handle T) : (x.blur base).same h = x.same h := by
  unfold blur same
  split
  · rfl
  · next new =>
    have apart : x.cell ≠ h.cell := fun same => new (same ▸ old)
    rw [beq_false_of_ne apart, beq_false_of_ne (Nat.ne_of_gt old)]

/-- One handle, or two copies of one definition in new cells, which are those from `base` on. -/
def SameUpTo {T : Type} (base : Cell) (x y : Handle T) : Prop :=
  x = y ∨ base ≤ x.cell ∧ base ≤ y.cell ∧ x.origin = y.origin ∧ x.item = y.item

omit [Item T] in
theorem sameUpTo_of_blur {x y : Handle T} (same : x.blur base = y.blur base) :
    SameUpTo base x y := by
  have item : x.item = y.item := by rw [← x.item_blur base, same, y.item_blur]
  have origin : x.origin = y.origin := by rw [← x.origin_blur base, same, y.origin_blur]
  have cells := congrArg Handle.cell same
  unfold blur at cells
  by_cases hx : x.cell < base <;> by_cases hy : y.cell < base
  · rw [if_pos hx, if_pos hy] at cells
    obtain ⟨_, _, _⟩ := x
    obtain ⟨_, _, _⟩ := y
    simp only at item origin cells
    exact .inl (by rw [item, origin, cells])
  · rw [if_pos hx, if_neg hy] at cells
    exact absurd hx (by rw [cells]; exact Nat.lt_irrefl base)
  · rw [if_neg hx, if_pos hy] at cells
    exact absurd hy (by rw [← cells]; exact Nat.lt_irrefl base)
  · exact .inr ⟨Nat.le_of_not_lt hx, Nat.le_of_not_lt hy, origin, item⟩

/-- The copies of one handle differ only by their new cells. -/
theorem blur_atPriority {u w : Supply} (hu : base ≤ u.next) (hw : base ≤ w.next)
    (h : Handle T) (priority : Int32) :
    (h.atPriority priority u).1.blur base = (h.atPriority priority w).1.blur base := by
  by_cases same : priority = Item.priority h.item
  · rw [same, atPriority_self, atPriority_self]
  · simp only [atPriority_of_ne same, blur, cell_withPriority, Nat.not_lt.mpr hu,
      Nat.not_lt.mpr hw, if_false]
    rfl

end Handle

namespace Chain

variable {c c' : Chain T} {h : Handle T} {contexts : Option ContextSet} {supply : Supply}

/-! ## New cells -/

section

variable {base : Cell}

omit [Item T] in
theorem contains_blur (old : h.cell < base) (c : Chain T) :
    (c.relabel (Handle.blur base)).contains h = c.contains h :=
  any_map_of_same (Handle.same_blur old) c.items

theorem containsCopy_blur (base : Cell) (c : Chain T) (g : Handle T) :
    (c.relabel (Handle.blur base)).containsCopy g = c.containsCopy g :=
  any_map_of_same (p := (·.copies g))
    (fun x => Handle.copies_congr (x.item_blur base) (x.origin_blur base) rfl rfl) c.items

/-- Chains whose handles differ only by new cells decide alike. -/
theorem settle_blur (same : c.relabel (Handle.blur base) = c'.relabel (Handle.blur base))
    {g g' : Handle T} (same_handle : g.blur base = g'.blur base) (u w : Supply) :
    (settle g c u).result = (settle g' c' w).result ∧
      (settle g c u).state.relabel (Handle.blur base) =
        (settle g' c' w).state.relabel (Handle.blur base) := by
  have decisions : Decision.relabel (Handle.blur base) (c.decide g) =
      Decision.relabel (Handle.blur base) (c'.decide g') := by
    rw [← decide_relabel (Handle.item_blur base), ← decide_relabel (Handle.item_blur base), same,
      same_handle]
  rw [settle_eq, settle_eq]
  cases left : c.decide g with
  | error e =>
      cases right : c'.decide g' with
      | error e' =>
          rw [left, right] at decisions
          exact ⟨congrArg Except.error (Except.error.inj decisions), same⟩
      | ok outcome =>
          rw [left, right] at decisions
          exact absurd decisions nofun
  | ok outcome =>
      cases right : c'.decide g' with
      | error e' =>
          rw [left, right] at decisions
          exact absurd decisions nofun
      | ok outcome' =>
          rw [left, right] at decisions
          obtain ⟨change, items⟩ := Prod.ext_iff.mp (Except.ok.inj decisions)
          refine ⟨congrArg Except.ok change, ?_⟩
          obtain ⟨key, -, rules, scope⟩ := Chain.mk.inj same
          exact Chain.mk.injEq .. |>.mpr ⟨key, items, rules, scope⟩

/-- A handle from outside merges alike into chains whose handles differ only by new cells. -/
theorem merge_blur [LawfulItem T]
    (same : c.relabel (Handle.blur base) = c'.relabel (Handle.blur base))
    (contexts : Option ContextSet) (old : h.cell < base) {u w : Supply} (hu : base ≤ u.next)
    (hw : base ≤ w.next) :
    (merge contexts h c u).result = (merge contexts h c' w).result ∧
      (merge contexts h c u).state.relabel (Handle.blur base) =
        (merge contexts h c' w).state.relabel (Handle.blur base) := by
  rw [merge_eq, merge_eq, ← contains_blur old c, same, contains_blur old c']
  split
  · exact ⟨rfl, same⟩
  cases priorityIn contexts h.item with
  | error e => exact ⟨rfl, same⟩
  | ok priority =>
      have copies : c.containsCopy (h.atPriority priority u).1 =
          c'.containsCopy (h.atPriority priority w).1 := by
        rw [← containsCopy_blur base, same, containsCopy_blur]
        exact containsCopy_congr (by simp) (by simp)
      simp only [copies]
      split
      · exact ⟨rfl, same⟩
      · exact settle_blur same (Handle.blur_atPriority hu hw h priority) _ _

end

/-! ## Entries of other kinds -/

section

variable {key : String} {p : Handle T → Bool}

/-- Entries that collide are of one kind. -/
def Kind (scope : KeyScope) (p : Handle T → Bool) : Prop :=
  ∀ x y : Handle T, scope.collides x.item y.item = true → p x = p y

/-- Those that have the key of a definition are of a kind. -/
theorem kind_collides (c : Chain T) (item : T) : Kind c.scope (c.collides item) :=
  fun _ _ collides => KeyScope.collides_congr collides item

theorem Kind.of_collides (kind : Kind c.scope p) {g : Handle T} (inside : p g = true)
    (x : Handle T) (collides : c.collides g.item x = true) : p x = true :=
  (kind x g collides).trans inside

omit [Item T] in
theorem contains_part (one : ∀ x ∈ c.items, x.cell = h.cell → p x = true) :
    (c.part key p).contains h = c.contains h := by
  rw [Bool.eq_iff_iff]
  simp only [contains, part, List.any_eq_true, List.mem_filter]
  constructor
  · rintro ⟨x, ⟨member, -⟩, same⟩
    exact ⟨x, member, same⟩
  · rintro ⟨x, member, same⟩
    exact ⟨x, ⟨member, one x member (beq_iff_eq.mp same)⟩, same⟩

variable [LawfulItem T]

theorem Kind.atPriority {scope : KeyScope} (kind : Kind scope p) (h : Handle T) (priority : Int32)
    (supply : Supply) : p (h.atPriority priority supply).1 = p h := by
  refine kind _ h ?_
  rw [Handle.item_atPriority, KeyScope.collides_withPriority_left]
  exact KeyScope.collides_refl scope h.item

theorem containsCopy_part (kind : Kind c.scope p) {g : Handle T} (inside : p g = true) :
    (c.part key p).containsCopy g = c.containsCopy g := by
  refine any_filter_of_imp (fun x copies => kind.of_collides inside x ?_) c.items
  exact KeyScope.collides_of_sameFields c.scope (Bool.and_eq_true_iff.mp copies).2

/-- A definition merges into the entries of its kind as into the whole chain. -/
theorem merge_part (kind : Kind c.scope p) (inside : p h = true)
    (one : ∀ x ∈ c.items, x.cell = h.cell → p x = true) (contexts : Option ContextSet)
    (supply : Supply) :
    (merge contexts h (c.part key p) supply).result =
        (merge contexts h c supply).result.mapError (·.withKey key) ∧
      (merge contexts h (c.part key p) supply).state =
        (merge contexts h c supply).state.part key p := by
  rw [merge_eq, merge_eq, contains_part one]
  split
  · exact ⟨rfl, rfl⟩
  cases priorityIn contexts h.item with
  | error e => exact ⟨rfl, rfl⟩
  | ok priority =>
      have own := (kind.atPriority h priority supply).trans inside
      simp only [containsCopy_part kind own]
      split
      · exact ⟨rfl, rfl⟩
      · -- No entry of another kind takes part in the decision.
        have decision : (c.part key p).decide (h.atPriority priority supply).1 =
            Decision.part key p (c.decide (h.atPriority priority supply).1) :=
          decide_part own (kind.of_collides own)
        rw [settle_eq, settle_eq, decision]
        cases c.decide (h.atPriority priority supply).1 <;> exact ⟨rfl, rfl⟩

/-- A merge leaves the entries of other kinds alone. -/
theorem part_merge_of_outside (kind : Kind c.scope p) (outside : p h = false)
    (contexts : Option ContextSet) (supply : Supply) :
    (merge contexts h c supply).state.part key p = c.part key p := by
  cases result : (merge contexts h c supply).result with
  | error e => rw [state_of_merge_eq_error result]
  | ok change =>
      rcases cases_of_merge_eq_ok result with
        ⟨-, same, -⟩ | ⟨-, priority, items, -, accepts, after⟩
      · rw [same]
      · have other := (kind.atPriority h priority supply).trans outside
        have kept := accepts.filter_other other fun x collides => (kind x _ collides).trans other
        rw [after, part, part]
        exact congrArg (fun items => ({ c with key, items } : Chain T)) kept

end

/-! ## Other buckets -/

section

variable {bucket : KeyScope} {key : String}

/-- Whether the entry has the bucket key. -/
def inBucket (bucket : KeyScope) (key : String) (x : Handle T) : Bool := bucket.key x.item == key

/-- The entries with the bucket key, as a chain of their own. -/
def bucketed (c : Chain T) (bucket : KeyScope) (key : String) : Chain T :=
  c.part key (inBucket bucket key)

theorem inBucket_iff {x : Handle T} : inBucket bucket key x = true ↔ bucket.key x.item = key :=
  beq_iff_eq

/-- Entries that collide have one bucket key. -/
theorem kind_inBucket {scope : KeyScope} (coarser : bucket.parts ≤ scope.parts) (key : String) :
    Kind (T := T) scope (inBucket bucket key) := fun _ _ collides =>
  congrArg (· == key) (KeyScope.key_eq_of_collides coarser collides)

variable [LawfulItem T]

/-- A definition merges into the entries with its bucket key as into the whole chain. -/
theorem merge_bucketed (coarser : bucket.parts ≤ c.scope.parts) (inside : bucket.key h.item = key)
    (one : ∀ x ∈ c.items, x.cell = h.cell → bucket.key x.item = key)
    (contexts : Option ContextSet) (supply : Supply) :
    (merge contexts h (c.bucketed bucket key) supply).result =
        (merge contexts h c supply).result.mapError (·.withKey key) ∧
      (merge contexts h (c.bucketed bucket key) supply).state =
        (merge contexts h c supply).state.bucketed bucket key :=
  merge_part (kind_inBucket coarser key) (inBucket_iff.mpr inside)
    (fun x member same => inBucket_iff.mpr (one x member same)) contexts supply

/-- A merge leaves the entries with other bucket keys alone. -/
theorem bucketed_merge_of_ne (coarser : bucket.parts ≤ c.scope.parts)
    (outside : bucket.key h.item ≠ key) (contexts : Option ContextSet) (supply : Supply) :
    (merge contexts h c supply).state.bucketed bucket key = c.bucketed bucket key :=
  part_merge_of_outside (kind_inBucket coarser key) (beq_false_of_ne outside) contexts supply

end

end Chain

end HostProfile
