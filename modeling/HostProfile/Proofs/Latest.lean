import HostProfile.PackageList
import HostProfile.Proofs.Replay
import HostProfile.Proofs.Squash
import Mathlib.Data.List.Induction

/-!
# Chains that keep the latest definitions

Under the rules of package lists, which squash identical definitions and keep all others side by
side, a chain of definitions without directives is a map in order of first appearance. Its keys are
the fields of the definitions, and what it has under them are the derivation and the priority that
came last. `Item.latest` says what that is of a whole list, and `Item.put` what one more definition
does to it.
-/

namespace HostProfile

variable {T : Type} [Item T]

namespace Item

/-- The item at its priority in the contexts, or as it is where it cannot be evaluated in them. -/
def weighed (contexts : Option ContextSet) (item : T) : T :=
  match priorityIn contexts item with
  | .ok priority => withPriority item priority
  | .error _ => item

theorem weighed_eq {contexts : Option ContextSet} {item : T} {priority : Int32}
    (value : priorityIn contexts item = .ok priority) :
    weighed contexts item = withPriority item priority := by
  rw [weighed, value]

@[simp] theorem derivation_weighed [LawfulItem T] (contexts : Option ContextSet) (item : T) :
    derivation (weighed contexts item) = derivation item := by
  unfold weighed
  split
  · exact LawfulItem.derivation_withPriority item _
  · rfl

@[simp] theorem mark_weighed [LawfulItem T] (contexts : Option ContextSet) (item : T) :
    mark (weighed contexts item) = mark item := by
  unfold weighed
  split
  · exact LawfulItem.mark_withPriority item _
  · rfl

/-- Of all items with the same fields the last one, in the order in which the fields first came
up. -/
def latest (items : List T) : List T :=
  (items.eraseDupsBy sameFields).filterMap fun first => items.findRev? (sameFields first)

/-- Puts an item in the place of the one with its fields, or at the end where there is none. -/
def put (a : T) (items : List T) : List T :=
  if items.any (sameFields a) then items.map fun x => if sameFields a x then a else x
  else items ++ [a]

/-- No two of the items have the same fields. -/
def Distinct (items : List T) : Prop := items.Pairwise fun a b => sameFields a b = false

variable [LawfulItem T] {a b x : T} {items : List T}

theorem sameFields_symm (same : sameFields a b = true) : sameFields b a = true :=
  (sameFields_comm b a).trans same

/-- Items with the same fields have the fields of the same others. -/
theorem sameFields_congr (same : sameFields a b = true) (x : T) :
    sameFields a x = sameFields b x := by
  rw [Bool.eq_iff_iff]
  exact ⟨sameFields_trans (sameFields_symm same), sameFields_trans same⟩

/-- An item with new fields is put behind the first ones. -/
theorem eraseDupsBy_concat (items : List T) (a : T) :
    (items ++ [a]).eraseDupsBy sameFields =
      items.eraseDupsBy sameFields ++ if items.any (sameFields a) then [] else [a] := by
  match items with
  | [] => rfl
  | x :: rest =>
      rw [List.cons_append, List.eraseDupsBy_cons, List.eraseDupsBy_cons, List.filter_append,
        List.any_cons, List.cons_append]
      cases same : sameFields a x with
      | true => simp [same]
      | false =>
          have others : (rest.filter fun b => sameFields b x = false).any (sameFields a) =
              rest.any (sameFields a) := by
            rw [List.any_filter]
            congr 1
            funext b
            cases twin : sameFields a b with
            | true => simp [← sameFields_congr twin, same]
            | false => rw [Bool.and_false]
          have last : [a].filter (fun b => sameFields b x = false) = [a] := by simp [same]
          rw [last, eraseDupsBy_concat _ a, others, Bool.false_or]
termination_by items.length
decreasing_by
  have shorter := List.length_filter_le (fun b => sameFields b x = false) rest
  simp only [List.length_cons]
  omega

theorem mem_of_mem_eraseDupsBy (member : x ∈ items.eraseDupsBy sameFields) : x ∈ items := by
  induction items using List.reverseRecOn with
  | nil => exact member
  | append_singleton items a ih =>
      rw [eraseDupsBy_concat] at member
      rcases List.mem_append.mp member with before | last
      · exact List.mem_append_left [a] (ih before)
      · split at last
        · exact absurd last List.not_mem_nil
        · exact List.mem_append_right items last

theorem exists_first (member : b ∈ items) :
    ∃ first ∈ items.eraseDupsBy sameFields, sameFields first b = true := by
  induction items using List.reverseRecOn generalizing b with
  | nil => exact absurd member List.not_mem_nil
  | append_singleton items a ih =>
      rw [eraseDupsBy_concat]
      rcases List.mem_append.mp member with before | last
      · obtain ⟨first, found, same⟩ := ih before
        exact ⟨first, List.mem_append_left _ found, same⟩
      · obtain rfl := List.mem_singleton.mp last
        split
        · next known =>
          obtain ⟨y, before, twin⟩ := List.any_eq_true.mp known
          obtain ⟨first, found, same⟩ := ih before
          exact ⟨first, List.mem_append_left _ found, sameFields_trans same (sameFields_symm twin)⟩
        · exact ⟨b, List.mem_append_right _ (List.mem_singleton_self b), sameFields_refl b⟩

omit [Item T] [LawfulItem T] in
theorem findRev?_concat (p : T → Bool) (items : List T) (a : T) :
    (items ++ [a]).findRev? p = if p a then some a else items.findRev? p := by
  rw [List.findRev?_eq_find?_reverse, List.findRev?_eq_find?_reverse, List.reverse_concat,
    List.find?_cons]
  cases p a <;> rfl

theorem exists_findRev? (member : x ∈ items) :
    ∃ last ∈ items, items.findRev? (sameFields x) = some last ∧ sameFields x last = true := by
  rw [List.findRev?_eq_find?_reverse]
  have some_last : (items.reverse.find? (sameFields x)).isSome = true :=
    List.find?_isSome.mpr ⟨x, List.mem_reverse.mpr member, sameFields_refl x⟩
  obtain ⟨last, found⟩ := Option.isSome_iff_exists.mp some_last
  exact ⟨last, List.mem_reverse.mp (List.mem_of_find?_eq_some found), found,
    List.find?_some found⟩

/-- The same fields come up among the latest items as among all of them. -/
theorem any_latest (items : List T) (a : T) :
    (latest items).any (sameFields a) = items.any (sameFields a) := by
  rw [Bool.eq_iff_iff, List.any_eq_true, List.any_eq_true]
  constructor
  · rintro ⟨x, member, same⟩
    obtain ⟨first, -, found⟩ := List.mem_filterMap.mp member
    rw [List.findRev?_eq_find?_reverse] at found
    exact ⟨x, List.mem_reverse.mp (List.mem_of_find?_eq_some found), same⟩
  · rintro ⟨b, member, same⟩
    obtain ⟨first, is_first, twin⟩ := exists_first member
    obtain ⟨last, -, found, fields⟩ := exists_findRev? (mem_of_mem_eraseDupsBy is_first)
    refine ⟨last, List.mem_filterMap.mpr ⟨first, is_first, found⟩, ?_⟩
    exact sameFields_trans same (sameFields_trans (sameFields_symm twin) fields)

/-- One more item is put among the latest ones. -/
theorem latest_concat (items : List T) (a : T) :
    latest (items ++ [a]) = put a (latest items) := by
  have firsts : (items.eraseDupsBy sameFields).filterMap
        (fun first => (items ++ [a]).findRev? (sameFields first)) =
      (latest items).map fun x => if sameFields a x then a else x := by
    rw [latest, List.map_filterMap]
    apply List.filterMap_congr
    intro first is_first
    obtain ⟨last, -, found, fields⟩ := exists_findRev? (mem_of_mem_eraseDupsBy is_first)
    rw [findRev?_concat, found, Option.map_some, sameFields_comm a last,
      ← sameFields_congr fields]
    split <;> rfl
  rw [latest, eraseDupsBy_concat, List.filterMap_append, firsts, put, any_latest]
  split
  · rw [List.filterMap_nil, List.append_nil]
  · next new =>
    have apart : ∀ x ∈ latest items, (if sameFields a x then a else x) = x := by
      intro x member
      rw [if_neg]
      intro same
      exact new ((any_latest items a).symm.trans (List.any_eq_true.mpr ⟨x, member, same⟩))
    rw [List.map_congr_left apart, List.map_id', List.filterMap_cons, findRev?_concat,
      if_pos (sameFields_refl a), List.filterMap_nil]

theorem Distinct.put (distinct : Distinct items) (a : T) : Distinct (put a items) := by
  unfold Item.put
  split
  · refine List.pairwise_map.mpr (distinct.imp ?_)
    intro x y apart
    have both (ax : sameFields a x = true) : sameFields a y = false :=
      (sameFields_congr ax y).trans apart
    split
    · next ax =>
      rw [both ax]
      simp [both ax]
    · next ax =>
      split
      · rw [sameFields_comm]
        exact eq_false_of_ne_true ax
      · exact apart
  · next new =>
    refine List.pairwise_append.mpr ⟨distinct, List.pairwise_singleton _ a, ?_⟩
    intro x member y last
    obtain rfl := List.mem_singleton.mp last
    rw [sameFields_comm]
    exact eq_false_of_ne_true fun same => new (List.any_eq_true.mpr ⟨x, member, same⟩)

theorem distinct_latest (items : List T) : Distinct (latest items) := by
  induction items using List.reverseRecOn with
  | nil => exact List.Pairwise.nil
  | append_singleton items a ih =>
      rw [latest_concat]
      exact ih.put a

theorem Distinct.eq_of_sameFields (distinct : Distinct items) (ha : a ∈ items) (hb : b ∈ items)
    (same : sameFields a b = true) : a = b :=
  eq_of_apart sameFields_comm distinct ha hb same

/-- An item that is there already is put where it is. -/
theorem put_of_mem (distinct : Distinct items) (member : a ∈ items) : put a items = items := by
  have known : items.any (sameFields a) = true :=
    List.any_eq_true.mpr ⟨a, member, sameFields_refl a⟩
  have stays : ∀ x ∈ items, (if sameFields a x then a else x) = x := by
    intro x held
    split
    · next same => exact distinct.eq_of_sameFields member held same
    · rfl
  rw [put, if_pos known, List.map_congr_left stays, List.map_id']

end Item

/-- The handles of one program: a cell holds one handle, an origin stands for one derivation, and no
copy lies in a cell of theirs when new cells are those from `base` on. -/
structure Coherent (base : Cell) (hs : List (Handle T)) : Prop where
  old : ∀ h ∈ hs, h.cell < base
  one : ∀ g ∈ hs, ∀ h ∈ hs, g.cell = h.cell → g = h
  derivation : ∀ g ∈ hs, ∀ h ∈ hs, g.origin = h.origin →
    Item.derivation g.item = Item.derivation h.item

namespace Chain

variable {c : Chain T} {contexts : Option ContextSet} {base : Cell} {all done hs : List (Handle T)}
  {g h x : Handle T} {supply : Supply} {priority : Int32}

/-- Among entries without directives, a definition without one is squashed into an entry with its
fields, or else kept beside all of them. -/
theorem decide_of_keeping (squash : c.rules.squashIdentical = true)
    (keep : c.rules.keepAll = true) (plain : Item.mark g.item = none)
    (unmarked : ∀ x ∈ c.items, Item.mark x.item = none) :
    c.decide g = .ok (
      if c.items.any (c.identical g) then (.replaced, replaceFirst (c.identical g) g c.items)
      else (.added, c.items ++ [g])) := by
  have directive := Item.directive_eq_none_iff.mpr plain
  cases clash : c.items.any (c.collides g.item) with
  | false =>
      have new : ¬ c.items.any (c.identical g) = true := by
        intro twin
        obtain ⟨x, held, same⟩ := List.any_eq_true.mp twin
        exact List.any_eq_false.mp clash x held (Bool.and_eq_true_iff.mp same).1
      rw [(Accepts.appended directive clash).decide_eq, if_neg new]
  | true =>
      obtain ⟨first, rest, entries⟩ := List.exists_cons_of_ne_nil (matching_ne_nil_iff.mpr clash)
      have held (x : Handle T) (member : x ∈ c.matching g.item) : x ∈ c.items :=
        (List.mem_filter.mp member).1
      have contest : c.Contest g first := {
        plain := directive
        unpinned := List.find?_eq_none.mpr fun x member => by
          rw [carries_of_unmarked (unmarked x (held x member))]
          exact nofun
        head := by rw [entries, List.head?_cons]
        unmarked := carriesDirective_of_unmarked
          (unmarked first (held first (entries ▸ List.mem_cons_self))) }
      cases twin : c.items.any (c.identical g) with
      | true => exact (Accepts.squashed contest squash twin).decide_eq
      | false =>
          have unsquashed : (c.rules.squashIdentical && c.items.any (c.identical g)) = false := by
            rw [twin, Bool.and_false]
          exact (Accepts.beside contest unsquashed keep).decide_eq

variable [LawfulItem T]

theorem map_item_replaceFirst {items : List (Handle T)}
    (distinct : Item.Distinct (items.map (·.item))) :
    (replaceFirst (c.identical g) g items).map (·.item) =
      (items.map (·.item)).map fun x => if Item.sameFields g.item x then g.item else x := by
  induction items with
  | nil => rfl
  | cons x rest ih =>
      rw [List.map_cons, Item.Distinct, List.pairwise_cons] at distinct
      rw [replaceFirst, identical_eq_sameFields, Item.sameFields_comm, List.map_cons, List.map_cons]
      split
      · next same =>
        have stays : ∀ y ∈ rest.map (·.item),
            (if Item.sameFields g.item y then g.item else y) = y := by
          intro y member
          have apart := (Item.sameFields_congr same y).trans (distinct.1 y member)
          exact if_neg (ne_true_of_eq_false apart)
        rw [List.map_congr_left stays, List.map_id', List.map_cons]
      · rw [List.map_cons, ih distinct.2]

/-- What is decided about the definition puts its item among those of the entries. -/
theorem map_item_decided (distinct : Item.Distinct (c.items.map (·.item))) :
    (if c.items.any (c.identical g) then (Change.replaced, replaceFirst (c.identical g) g c.items)
      else (.added, c.items ++ [g])).2.map (·.item) = Item.put g.item (c.items.map (·.item)) := by
  have known : c.items.any (c.identical g) =
      (c.items.map (·.item)).any (Item.sameFields g.item) := by
    rw [List.any_map]
    congr 1
    funext x
    rw [identical_eq_sameFields, Item.sameFields_comm]
    rfl
  rw [Item.put, known]
  split
  · exact map_item_replaceFirst distinct
  · rw [List.map_append, List.map_singleton]

omit [LawfulItem T] in
/-- The chain has the latest of the definitions that were merged into it, and each entry is one of
these at its priority in the contexts. -/
structure KeepsLatest (contexts : Option ContextSet) (base : Cell) (done : List (Handle T))
    (c : Chain T) : Prop where
  squash : c.rules.squashIdentical = true
  keep : c.rules.keepAll = true
  items : c.items.map (·.item) = Item.latest (done.map fun h => Item.weighed contexts h.item)
  entries : ∀ x ∈ c.items, ∃ h ∈ done, x.item = Item.weighed contexts h.item ∧
    x.origin = h.origin ∧ (x.cell = h.cell ∨ base ≤ x.cell)

namespace KeepsLatest

variable (keeps : c.KeepsLatest contexts base done) (coherent : Coherent base all)
  (within : ∀ g ∈ done, g ∈ all) (among : h ∈ all)

include keeps coherent within among

omit [LawfulItem T] in
/-- A handle that is found had the same item merged before. -/
theorem stored_of_contains (found : c.contains h = true) :
    Item.weighed contexts h.item ∈ c.items.map (·.item) := by
  obtain ⟨x, held, same⟩ := List.any_eq_true.mp found
  have same_cell : x.cell = h.cell := beq_iff_eq.mp same
  obtain ⟨g, before, item, -, own | new⟩ := keeps.entries x held
  · obtain rfl := coherent.one g (within g before) h among (own.symm.trans same_cell)
    exact item ▸ List.mem_map_of_mem held
  · exact absurd (same_cell ▸ new) (Nat.not_le.mpr (coherent.old h among))

/-- A copy that is found is equal to the one that would be merged, since the two share their
derivation. -/
theorem stored_of_containsCopy (origin : g.origin = h.origin)
    (item : g.item = Item.weighed contexts h.item) (found : c.containsCopy g = true) :
    Item.weighed contexts h.item ∈ c.items.map (·.item) := by
  obtain ⟨x, held, copy⟩ := List.any_eq_true.mp found
  obtain ⟨⟨shared, fields⟩, level⟩ := Handle.Kin.copies_iff.mp copy
  obtain ⟨k, before, is, from_k, -⟩ := keeps.entries x held
  have derivation : Item.derivation g.item = Item.derivation x.item := by
    rw [item, is, Item.derivation_weighed, Item.derivation_weighed]
    apply coherent.derivation h among k (within k before)
    rw [← origin, ← from_k, shared]
  have equal := (Item.priority_eq_iff_of_sameFields fields).mp level.symm
  rw [derivation, LawfulItem.withDerivation_derivation] at equal
  rw [← item, equal]
  exact List.mem_map_of_mem held

/-- A merge succeeds and puts the definition at its priority among the entries. -/
theorem items_merge (plain : ∀ g ∈ all, Item.mark g.item = none)
    (value : priorityIn contexts h.item = .ok priority) (supply : Supply) :
    (∃ change, (Chain.merge contexts h c supply).result = .ok change) ∧
      (Chain.merge contexts h c supply).state.items.map (·.item) =
        Item.put (Item.weighed contexts h.item) (c.items.map (·.item)) := by
  have distinct : Item.Distinct (c.items.map (·.item)) := by
    rw [keeps.items]
    exact Item.distinct_latest _
  have item : (h.atPriority priority supply).1.item = Item.weighed contexts h.item := by
    rw [Handle.item_atPriority, Item.weighed_eq value]
  rw [merge_eq, value]
  split
  · next found =>
    have stored := keeps.stored_of_contains coherent within among found
    exact ⟨⟨_, rfl⟩, (Item.put_of_mem distinct stored).symm⟩
  dsimp only
  split
  · next found =>
    have stored := keeps.stored_of_containsCopy coherent within among (by simp) item found.2
    exact ⟨⟨_, rfl⟩, (Item.put_of_mem distinct stored).symm⟩
  · have unmarked : ∀ x ∈ c.items, Item.mark x.item = none := by
      intro x held
      obtain ⟨k, before, is, -⟩ := keeps.entries x held
      rw [is, Item.mark_weighed]
      exact plain k (within k before)
    have plain_copy : Item.mark (h.atPriority priority supply).1.item = none := by
      rw [item, Item.mark_weighed]
      exact plain h among
    rw [settle_eq, decide_of_keeping keeps.squash keeps.keep plain_copy unmarked, ← item,
      ← map_item_decided distinct]
    exact ⟨⟨_, rfl⟩, rfl⟩

/-- So the chain has the latest of one definition more. -/
theorem merge (plain : ∀ g ∈ all, Item.mark g.item = none)
    (value : priorityIn contexts h.item = .ok priority) (new : base ≤ supply.next) :
    (∃ change, (Chain.merge contexts h c supply).result = .ok change) ∧
      (Chain.merge contexts h c supply).state.KeepsLatest contexts base (done ++ [h]) := by
  obtain ⟨ok, items⟩ := keeps.items_merge coherent within among plain value supply
  refine ⟨ok, ?_, ?_, ?_, fun x held => ?_⟩
  · rw [rules_merge]
    exact keeps.squash
  · rw [rules_merge]
    exact keeps.keep
  · rw [items, keeps.items, List.map_append, List.map_singleton, Item.latest_concat]
  · obtain ⟨entries, after, old_or_new⟩ := merge_frame contexts h c supply
    rw [after] at held
    rcases old_or_new x held with before | ⟨priority, is, rfl⟩
    · obtain ⟨k, was, rest⟩ := keeps.entries x before
      exact ⟨k, List.mem_append_left _ was, rest⟩
    · refine ⟨h, List.mem_append_right _ (List.mem_singleton_self h), ?_, by simp, ?_⟩
      · rw [Handle.item_atPriority, Item.weighed_eq is]
      · unfold Handle.atPriority
        split
        · exact .inl rfl
        · exact .inr new

end KeepsLatest

/-- Definitions without directives that are merged into an empty chain under the rules that squash
identical definitions and keep all others are all taken in. For each combination of fields that
occurred the chain then has one item, in the order in which they first occurred, and it is the last
definition with these fields, at its priority in the contexts. -/
theorem items_of_merges (key : String) (rules : MergeRules) (scope : KeyScope)
    (contexts : Option ContextSet) (hs : List (Handle T)) (supply : Supply)
    (squash : rules.squashIdentical = true) (keep : rules.keepAll = true)
    (plain : ∀ h ∈ hs, Item.directive h.item = .ok none)
    (parses : contexts.isSome → ∀ h ∈ hs,
      ∃ expr, Context.Expr.parse (Item.context h.item) = .ok expr)
    (coherent : Coherent supply.next hs) :
    let o := Action.each (merge contexts) hs { key, rules, scope } supply
    (∃ change, o.result = .ok change) ∧
      o.state.items.map (·.item) = Item.latest (hs.map fun h => Item.weighed contexts h.item) := by
  have unmarked : ∀ h ∈ hs, Item.mark h.item = none := fun h among =>
    Item.directive_eq_none_iff.mp (plain h among)
  have start : ({ key, rules, scope } : Chain T).KeepsLatest contexts supply.next [] :=
    ⟨squash, keep, rfl, fun _ held => absurd held List.not_mem_nil⟩
  have step : ∀ before h behind, hs = before ++ h :: behind → ∀ (c : Chain T) (left : Supply),
      (c.KeepsLatest contexts supply.next before ∧ supply.next ≤ left.next) →
      (∃ change, (merge contexts h c left).result = .ok change) ∧
        (merge contexts h c left).state.KeepsLatest contexts supply.next (before ++ [h]) ∧
          supply.next ≤ (merge contexts h c left).supply.next := by
    rintro before h behind is c left ⟨keeps, new⟩
    have among : h ∈ hs := is ▸ List.mem_append_right _ List.mem_cons_self
    have within : ∀ g ∈ before, g ∈ hs := fun g done => is ▸ List.mem_append_left _ done
    obtain ⟨priority, weighs⟩ := exists_priorityIn_of_parses contexts (parses · h among)
    obtain ⟨ok, next⟩ := keeps.merge coherent within among unmarked weighs new
    exact ⟨ok, next, Nat.le_trans new (le_next_supply_merge contexts h c left)⟩
  obtain ⟨ok, kept, -⟩ := Action.each_succeeds step ⟨start, Nat.le_refl _⟩
  exact ⟨ok, kept.items⟩

/-- The package comes back from another place, and then once more as a copy of the first with
another priority: it stays in the first place, with the derivation of the copy. -/
theorem items_of_merges_of_returned :
    let laptop : ContextSet := ⟨⟨[("laptop", 1)], by decide⟩⟩
    let vim (cell origin : Cell) (source : String) (priority : Int32) : Handle Package :=
      ⟨cell, origin, {
        name := "vim", context := "laptop", derivation := ⟨[source]⟩, priority }⟩
    let nano : Handle Package := ⟨2, 3, { name := "nano" }⟩
    let hs := [vim 0 1 "base" 0, nano, vim 4 5 "site" 1, vim 6 1 "base" 7]
    let o := Action.each (merge (some laptop)) hs
      { key := "packages", rules := PackageList.standardRules, scope := .nameArch } ⟨7⟩
    (∀ h ∈ hs, Item.directive h.item = .ok none) ∧
      (∀ h ∈ hs, ∃ expr, Context.Expr.parse (Item.context h.item) = .ok expr) ∧
      Coherent 7 hs ∧ (∃ change, o.result = .ok change) ∧
      o.state.items.map (·.item) = [(vim 0 1 "base" 1).item, nano.item] := by
  intro laptop vim nano hs o
  have plain : ∀ h ∈ hs, Item.directive h.item = .ok none := by decide
  have anywhere : Context.Expr.parse "" = .ok .always :=
    Context.Expr.parse_of_no_tokens (.start [])
  have named : Context.Expr.parse "laptop" = .ok (.name "laptop") :=
    Context.Expr.parse_of_isValidName (by decide)
  have parses : ∀ h ∈ hs, ∃ expr, Context.Expr.parse (Item.context h.item) = .ok expr := by
    simp only [hs, List.forall_mem_cons]
    exact ⟨⟨_, named⟩, ⟨_, anywhere⟩, ⟨_, named⟩, ⟨_, named⟩, List.forall_mem_nil _⟩
  have coherent : Coherent 7 hs := ⟨by decide, by decide, by decide⟩
  obtain ⟨ok, items⟩ := items_of_merges "packages" PackageList.standardRules .nameArch
    (some laptop) hs ⟨7⟩ rfl rfl plain (fun _ => parses) coherent
  have weighed (cell origin : Cell) (source : String) (priority : Int32) :
      Item.weighed (some laptop) (vim cell origin source priority).item =
        (vim cell origin source 1).item := by
    have parsed : Context.Expr.parse (Item.context (vim cell origin source priority).item) =
        .ok (.name "laptop") := named
    exact Item.weighed_eq (laptop.evaluateItem_of_parse parsed)
  have weighed_nano : Item.weighed (some laptop) nano.item = nano.item := by
    have parsed : Context.Expr.parse (Item.context nano.item) = .ok .always := anywhere
    exact Item.weighed_eq (laptop.evaluateItem_of_parse parsed)
  refine ⟨plain, parses, coherent, ok, items.trans ?_⟩
  simp only [hs, List.map_cons, List.map_nil, weighed, weighed_nano]
  decide

end Chain

end HostProfile
