import HostProfile.Proofs.Chain.Ranked

/-!
# Champions of a chain

Candidates are definitions whose rank can be told. A chain into which candidates are merged under
the standard rules has their champions: for each key an entry that has the fields of one of them and
is outranked by none. A merge makes them the champions of one candidate more.
-/

namespace HostProfile

variable {T : Type} [Item T]

/-- Definitions that the standard rules can rank: none carries a directive, all of their contexts
can be evaluated, and of two with one key that differ in their fields one has a higher priority. No
two of them lie in one cell, and no copy lies in a cell of theirs, when new cells are those from
`base` on. -/
structure Candidates (set : ContextSet) (scope : KeyScope) (base : Cell) (hs : List (Handle T)) :
    Prop where
  plain : ∀ h ∈ hs, Item.mark h.item = none
  parses : ∀ h ∈ hs, ∃ expr, Context.Expr.parse (Item.context h.item) = .ok expr
  apart : ∀ g ∈ hs, ∀ h ∈ hs, scope.collides g.item h.item = true →
    Item.sameFields g.item h.item = true ∨ set.evaluateItem g.item ≠ set.evaluateItem h.item
  old : ∀ h ∈ hs, h.cell < base
  one : ∀ g ∈ hs, ∀ h ∈ hs, g.cell = h.cell → g = h

namespace Candidates

variable {set : ContextSet} {scope : KeyScope} {base : Cell} {hs hs' : List (Handle T)}
  {h : Handle T}

theorem perm (candidates : Candidates set scope base hs) (perm : hs.Perm hs') :
    Candidates set scope base hs' where
  plain h among := candidates.plain h (perm.mem_iff.mpr among)
  parses h among := candidates.parses h (perm.mem_iff.mpr among)
  apart g hg h hh := candidates.apart g (perm.mem_iff.mpr hg) h (perm.mem_iff.mpr hh)
  old h among := candidates.old h (perm.mem_iff.mpr among)
  one g hg h hh := candidates.one g (perm.mem_iff.mpr hg) h (perm.mem_iff.mpr hh)

theorem evaluates (candidates : Candidates set scope base hs) (among : h ∈ hs) :
    ∃ priority, set.evaluateItem h.item = .ok priority := by
  obtain ⟨expr, parsed⟩ := candidates.parses h among
  exact ⟨expr.evaluate set, set.evaluateItem_of_parse parsed⟩

end Candidates

namespace Chain

variable {set : ContextSet} {base : Cell} {all done : List (Handle T)} {c : Chain T}
  {g h x : Handle T} {supply : Supply}

/-- The chain has the champions of the definitions that were merged into it: each entry has the
fields of one of them, each of them is covered by an entry, and the key of the first comes first. -/
structure Champions (set : ContextSet) (base : Cell) (done : List (Handle T)) (c : Chain T) :
    Prop where
  ranked : c.Ranked set
  origin : ∀ x ∈ c.items, ∃ h ∈ done, Item.sameFields h.item x.item = true
  cells : ∀ x ∈ c.items, x ∈ done ∨ base ≤ x.cell
  covers : ∀ h ∈ done, ∀ priority, set.evaluateItem h.item = .ok priority →
    c.Covers (Item.withPriority h.item priority)
  opens : ∀ h, done.head? = some h → c.Opens h.item

/-- What a chain has after a merge it had before, or it is the definition at its priority. -/
theorem mem_of_mem_merge {contexts : Option ContextSet}
    (held : x ∈ (merge contexts h c supply).state.items) :
    x ∈ c.items ∨ ∃ priority, x = (h.atPriority priority supply).1 := by
  obtain ⟨items, after, old_or_new⟩ := merge_frame contexts h c supply
  rw [after] at held
  exact (old_or_new x held).imp_right fun ⟨priority, _, is⟩ => ⟨priority, is⟩

/-- What is merged into a chain without entries comes first, if it is taken in. -/
theorem opens_merge_of_nil [LawfulItem T] {contexts : Option ContextSet} {item : T}
    (nothing : c.items = []) (taken : (merge contexts h c supply).state.Covers item) :
    (merge contexts h c supply).state.Opens h.item := by
  obtain ⟨x, held, -⟩ := taken
  obtain ⟨y, rest, items⟩ := List.exists_cons_of_ne_nil (List.ne_nil_of_mem held)
  refine ⟨y, rest, items, ?_⟩
  rcases mem_of_mem_merge (items ▸ List.mem_cons_self) with before | ⟨p, rfl⟩
  · rw [nothing] at before
    exact absurd before List.not_mem_nil
  · rw [Chain.collides, Handle.item_atPriority, KeyScope.collides_withPriority_left]
    exact KeyScope.collides_refl _ h.item

namespace Champions

variable (champions : c.Champions set base done) (candidates : Candidates set c.scope base all)
  (within : ∀ g ∈ done, g ∈ all) (among : h ∈ all)

include champions candidates within among

/-- Only the candidate itself lies in its cell. -/
theorem eq_of_cell (held : x ∈ c.items) (same : x.cell = h.cell) : x = h := by
  rcases champions.cells x held with before | fresh
  · exact candidates.one x (within x before) h among same
  · exact absurd (same ▸ fresh) (Nat.not_le.mpr (candidates.old h among))

variable [LawfulItem T]

/-- An entry with the key of a candidate and other fields has another priority. -/
theorem apart {priority : Int32} (value : set.evaluateItem h.item = .ok priority)
    (held : x ∈ c.items) (collides : c.collides h.item x = true) :
    Item.sameFields x.item h.item = true ∨ Item.priority x.item ≠ priority := by
  obtain ⟨g, before, fields⟩ := champions.origin x held
  have same_key := KeyScope.collides_trans (KeyScope.collides_of_sameFields c.scope fields) collides
  rcases candidates.apart g (within g before) h among same_key with same | ne
  · exact .inl (Item.sameFields_trans ((Item.sameFields_comm ..).trans fields) same)
  · refine .inr fun is => ne ?_
    rw [set.evaluateItem_eq_of_sameFields fields, champions.ranked.weighed x held, is, value]

/-- A candidate is merged, and the champions are then those of one more. -/
theorem merge (new : base ≤ supply.next) :
    (∃ change, (Chain.merge (some set) h c supply).result = .ok change) ∧
      (Chain.merge (some set) h c supply).state.Champions set base (done ++ [h]) := by
  obtain ⟨priority, value⟩ := candidates.evaluates among
  obtain ⟨merged, ranked, own, raises⟩ := champions.ranked.merge value (candidates.plain h among)
    (fun x held => champions.eq_of_cell candidates within among held)
    (fun x held => champions.apart candidates within among value held) supply
  have last : h ∈ done ++ [h] := List.mem_append_right _ (List.mem_singleton_self h)
  refine ⟨merged, ranked, fun x held => ?origin, fun x held => ?cells,
    fun g before p is => ?covers, fun g first => ?opens⟩
  case origin =>
    rcases mem_of_mem_merge held with before | ⟨p, rfl⟩
    · obtain ⟨g, was, fields⟩ := champions.origin x before
      exact ⟨g, List.mem_append_left _ was, fields⟩
    · refine ⟨h, last, ?_⟩
      rw [Handle.item_atPriority, Item.sameFields_withPriority_right]
      exact Item.sameFields_refl h.item
  case cells =>
    rcases mem_of_mem_merge held with before | ⟨p, rfl⟩
    · exact (champions.cells x before).imp_left (List.mem_append_left _)
    · unfold Handle.atPriority
      split
      · exact .inl last
      · exact .inr new
  case covers =>
    rcases List.mem_append.mp before with before | is_last
    · exact raises.covers scope_merge (champions.covers g before p is)
    · obtain rfl := List.mem_singleton.mp is_last
      obtain rfl := Except.ok.inj (value.symm.trans is)
      exact own
  case opens =>
    cases done with
    | cons first' rest => exact raises.opens scope_merge (champions.opens g first)
    | nil =>
        obtain rfl := Option.some.inj first
        refine opens_merge_of_nil (List.eq_nil_iff_forall_not_mem.mpr fun y before => ?_) own
        obtain ⟨_, none, -⟩ := champions.origin y before
        exact List.not_mem_nil none

end Champions

end Chain

end HostProfile
