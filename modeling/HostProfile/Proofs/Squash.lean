import HostProfile.Proofs.Chain.Change
import HostProfile.Proofs.Chain.Ranked
import HostProfile.Proofs.ItemTable.Twins

/-!
# Squashed definitions

Under the rule that squashes identical definitions, a definition takes the place of the first entry
with its fields, and brings in its derivation and its priority. Where the two have one priority, as
they do when both were evaluated in the same contexts, the entry changes in nothing but the
derivation, and the chain picks its entries in the same places as before: what is picked depends on
names, architectures and priorities only.
-/

namespace HostProfile

variable {T : Type} [Item T]

/-- No choice tells the two apart: they define one name for one architecture, at one priority. -/
structure Peers (a b : T) : Prop where
  rivals : Rivals a b
  priority : Item.priority a = Item.priority b

theorem Peers.refl (a : T) : Peers a a := ⟨⟨rfl, rfl⟩, rfl⟩

/-- An item with the fields and the priority of another is that other with its own derivation. -/
theorem Item.priority_eq_iff_of_sameFields [LawfulItem T] {x g : T}
    (same : sameFields x g = true) :
    priority g = priority x ↔ g = withDerivation x (derivation g) := by
  constructor
  · intro level
    calc
      g = withDerivation (withPriority g (priority x)) (derivation g) := by
        rw [← level, LawfulItem.withPriority_priority, LawfulItem.withDerivation_derivation]
      _ = withDerivation (withPriority x (priority x)) (derivation g) :=
        ((LawfulItem.sameFields_iff x g).mp same _ _).symm
      _ = withDerivation x (derivation g) := by rw [LawfulItem.withPriority_priority]
  · intro is
    rw [is, LawfulItem.priority_withDerivation]

/-! ## Picks among peers

Two lists that are the images of one list of places, and that have peers in each place. -/

section Places

variable {ι : Type} {f f' : ι → Handle T} (peers : ∀ i, Peers (f i).item (f' i).item)
include peers

theorem exists_outdo (best : Option ι) (i : ι) : ∃ next : Option ι,
    outdo (best.map f) (f i) = next.map f ∧ outdo (best.map f') (f' i) = next.map f' := by
  cases best with
  | none => exact ⟨some i, rfl, rfl⟩
  | some b =>
      simp only [Option.map_some, outdo, ← (peers b).priority, ← (peers i).priority]
      split
      · exact ⟨some b, rfl, rfl⟩
      · exact ⟨some i, rfl, rfl⟩

theorem exists_foldl_outdo (is : List ι) (best : Option ι) : ∃ pick : Option ι,
    (is.map f).foldl outdo (best.map f) = pick.map f ∧
      (is.map f').foldl outdo (best.map f') = pick.map f' := by
  induction is generalizing best with
  | nil => exact ⟨best, rfl, rfl⟩
  | cons i rest ih =>
      obtain ⟨next, first, first'⟩ := exists_outdo peers best i
      rw [List.map_cons, List.map_cons, List.foldl_cons, List.foldl_cons, first, first']
      exact ih next

/-- Peers are active in the same places. -/
theorem exists_filter_isActive (is : List ι) : ∃ actives : List ι,
    (is.map f).filter (Item.isActive ·.item) = actives.map f ∧
      (is.map f').filter (Item.isActive ·.item) = actives.map f' := by
  refine ⟨is.filter fun i => Item.isActive (f i).item, List.filter_map, ?_⟩
  rw [List.filter_map]
  congr 1
  apply List.filter_congr
  intro i _
  show Item.isActive (f' i).item = Item.isActive (f i).item
  rw [Item.isActive, Item.isActive, (peers i).priority]

theorem exists_best?_map (is : List ι) : ∃ pick : Option ι,
    best? (is.map f) = pick.map f ∧ best? (is.map f') = pick.map f' := by
  obtain ⟨actives, shown, shown'⟩ := exists_filter_isActive peers is
  rw [best?_eq, best?_eq, shown, shown']
  exact exists_foldl_outdo peers actives none

namespace Chain

theorem exists_compete (winners : List ι) (i : ι) : ∃ next : List ι,
    compete (winners.map f) (f i) = next.map f ∧
      compete (winners.map f') (f' i) = next.map f' := by
  induction winners with
  | nil => exact ⟨[i], rfl, rfl⟩
  | cons w rest ih =>
      have own : (f' w).defines (Item.name (f' i).item) (Item.arch (f' i).item) =
          (f w).defines (Item.name (f i).item) (Item.arch (f i).item) := by
        rw [Handle.defines, Handle.defines, (peers w).rivals.1, (peers w).rivals.2,
          (peers i).rivals.1, (peers i).rivals.2]
      rw [List.map_cons, List.map_cons, compete_cons, compete_cons, own, ← (peers w).priority,
        ← (peers i).priority]
      split
      · split
        · exact ⟨i :: rest, rfl, rfl⟩
        · exact ⟨w :: rest, rfl, rfl⟩
      · obtain ⟨next, first, first'⟩ := ih
        exact ⟨w :: next, by rw [first, List.map_cons], by rw [first', List.map_cons]⟩

theorem exists_foldl_compete (is winners : List ι) : ∃ next : List ι,
    (is.map f).foldl compete (winners.map f) = next.map f ∧
      (is.map f').foldl compete (winners.map f') = next.map f' := by
  induction is generalizing winners with
  | nil => exact ⟨winners, rfl, rfl⟩
  | cons i rest ih =>
      obtain ⟨next, first, first'⟩ := exists_compete peers winners i
      rw [List.map_cons, List.map_cons, List.foldl_cons, List.foldl_cons, first, first']
      exact ih next

end Chain

end Places

namespace Chain

/-- The two chains pick in the same places, the active definition as well as the winners for all
names and architectures. -/
structure PicksAlike (c c' : Chain T) : Prop where
  /-- A place behind the last entry stands for no pick. -/
  active : ∃ place : Nat, c.active? = c.items[place]? ∧ c'.active? = c'.items[place]?
  resolved : ∃ places : List Nat, c.resolved.map some = places.map (c.items[·]?) ∧
    c'.resolved.map some = places.map (c'.items[·]?)

/-- A chain that has peers in the places of the entries picks in the same places. -/
theorem picksAlike_of_forall₂ {c c' : Chain T}
    (peers : List.Forall₂ (fun x y => Peers x.item y.item) c.items c'.items) :
    c.PicksAlike c' := by
  obtain ⟨length, each⟩ := List.forall₂_iff_get.mp peers
  let f (i : Fin c.items.length) : Handle T := c.items.get i
  let f' (i : Fin c.items.length) : Handle T := c'.items.get (i.cast length)
  have same : ∀ i, Peers (f i).item (f' i).item := fun i => each i i.isLt (length ▸ i.isLt)
  have is : (List.finRange c.items.length).map f = c.items := List.map_get_finRange c.items
  have is' : (List.finRange c.items.length).map f' = c'.items := by
    apply List.ext_get
    · simp [length]
    · intro i _ _
      simp [f']
  have at_place (i : Fin c.items.length) : some (f i) = c.items[i.val]? ∧
      some (f' i) = c'.items[i.val]? :=
    ⟨(List.getElem?_eq_getElem i.isLt).symm, (List.getElem?_eq_getElem (length ▸ i.isLt)).symm⟩
  constructor
  · obtain ⟨pick, first, first'⟩ := exists_best?_map same (List.finRange c.items.length)
    rw [is] at first
    rw [is'] at first'
    cases pick with
    | none =>
        refine ⟨c.items.length, first.trans ?_, first'.trans ?_⟩
        · simp
        · simp [length]
    | some i => exact ⟨i, first.trans (at_place i).1, first'.trans (at_place i).2⟩
  · obtain ⟨actives, shown, shown'⟩ := exists_filter_isActive same (List.finRange c.items.length)
    obtain ⟨picks, all, all'⟩ := exists_foldl_compete same actives []
    rw [is] at shown
    rw [is'] at shown'
    refine ⟨picks.map Fin.val, ?_, ?_⟩
    · rw [Chain.resolved, shown, show ([] : List (Handle T)) = [].map f from rfl, all]
      simp only [List.map_map]
      exact List.map_congr_left fun i _ => (at_place i).1
    · rw [Chain.resolved, shown', show ([] : List (Handle T)) = [].map f' from rfl, all']
      simp only [List.map_map]
      exact List.map_congr_left fun i _ => (at_place i).2

/-! ## What a squash changes -/

omit [Item T] in
/-- The first handle that passes the test gives way. -/
theorem replaceFirst_of_first {p : Handle T → Bool} {before behind : List (Handle T)}
    {x h : Handle T} (none_before : ∀ y ∈ before, p y = false) (passes : p x = true) :
    replaceFirst p h (before ++ x :: behind) = before ++ h :: behind := by
  induction before with
  | nil => rw [List.nil_append, replaceFirst, if_pos passes, List.nil_append]
  | cons y rest ih =>
      rw [List.forall_mem_cons] at none_before
      rw [List.cons_append, replaceFirst, none_before.1, ih none_before.2, List.cons_append]
      rfl

variable {c : Chain T}

theorem identical_eq_sameFields [LawfulItem T] (c : Chain T) (h x : Handle T) :
    c.identical h x = Item.sameFields x.item h.item := by
  rw [identical]
  cases same : Item.sameFields x.item h.item with
  | true => rw [collides, KeyScope.collides_of_sameFields c.scope same, Bool.true_and]
  | false => rw [Bool.and_false]

/-- A definition that the chain takes in, which has the fields of an entry and no directive,
replaces something only by squashing it. -/
theorem Accepts.eq_replaceFirst {g : Handle T} {items : List (Handle T)}
    (accepts : c.Accepts g .replaced items) (rule : c.rules.squashIdentical = true)
    (plain : Item.directive g.item = .ok none) (twin : c.items.any (c.identical g) = true) :
    items = replaceFirst (c.identical g) g c.items := by
  have squashes : (c.rules.squashIdentical && c.items.any (c.identical g)) ≠ false := by
    rw [rule, twin]
    decide
  cases accepts with
  | enforced directive => exact absurd (directive.symm.trans plain) nofun
  | squashed => rfl
  | displaced _ unsquashed => exact absurd unsquashed squashes
  | won _ unsquashed => exact absurd unsquashed squashes

/-- A squash exchanges one entry, the first with the fields of the definition, for the definition at
its priority in the contexts, and nothing else. The entry changes in nothing but its derivation
exactly when that is the priority the entry had; then the chain picks in the same places as before,
and so it always is when the entry had been evaluated in the same contexts. -/
theorem squash_refreshes_derivation [LawfulItem T] (c : Chain T) (contexts : Option ContextSet)
    (h : Handle T) (supply : Supply) (rule : c.rules.squashIdentical = true)
    (plain : Item.directive h.item = .ok none)
    (twin : ∃ x ∈ c.items, Item.sameFields x.item h.item = true)
    (squashed : (merge contexts h c supply).result = .ok .replaced) :
    let g := h.candidate contexts supply
    let after := (merge contexts h c supply).state
    ∃ before x behind, c.items = before ++ x :: behind ∧
      after = { c with items := before ++ g :: behind } ∧
      (∀ y ∈ before, Item.sameFields y.item h.item = false) ∧
      Item.sameFields x.item g.item = true ∧
      Item.derivation g.item = Item.derivation h.item ∧
      (Item.priority g.item = Item.priority x.item ↔
        g.item = Item.withDerivation x.item (Item.derivation h.item)) ∧
      (Item.priority g.item = Item.priority x.item → c.PicksAlike after) ∧
      ∀ set, contexts = some set → x.WeighedIn set →
        Item.priority g.item = Item.priority x.item := by
  intro g after
  obtain ⟨unchanged, -, -⟩ | ⟨-, priority, items, value, accepts, state⟩ :=
    cases_of_merge_eq_ok squashed
  · exact absurd unchanged nofun
  have is : g = (h.atPriority priority supply).1 := Handle.candidate_eq value supply
  rw [← is] at accepts
  have item : g.item = Item.withPriority h.item priority := by rw [is, Handle.item_atPriority]
  have derivation : Item.derivation g.item = Item.derivation h.item := by
    rw [item, LawfulItem.derivation_withPriority]
  have identical (y : Handle T) : c.identical g y = Item.sameFields y.item h.item := by
    rw [identical_eq_sameFields, item, Item.sameFields_withPriority_right]
  -- The entry that gives way is the first with the fields of the definition.
  obtain ⟨y, held, fields⟩ := twin
  have found : (c.items.find? (c.identical g)).isSome = true :=
    List.find?_isSome.mpr ⟨y, held, (identical y).trans fields⟩
  obtain ⟨x, first⟩ := Option.isSome_iff_exists.mp found
  obtain ⟨own, before, behind, was, others⟩ := List.find?_eq_some_iff_append.mp first
  have none_before : ∀ y ∈ before, c.identical g y = false := fun y among =>
    (Bool.not_eq_true' _).mp (others y among)
  have any : c.items.any (c.identical g) = true :=
    List.any_eq_true.mpr ⟨y, held, (identical y).trans fields⟩
  have put : items = before ++ g :: behind := by
    rw [accepts.eq_replaceFirst rule (by rw [item, Item.directive_withPriority, plain]) any, was,
      replaceFirst_of_first none_before own]
  have same : Item.sameFields x.item g.item = true := (identical_eq_sameFields c g x) ▸ own
  refine ⟨before, x, behind, was, by rw [← put]; exact state,
    fun y among => (identical y).symm.trans (none_before y among), same, derivation, ?_, ?_, ?_⟩
  · rw [Item.priority_eq_iff_of_sameFields same, derivation]
  · intro level
    have peers : Peers x.item g.item := ⟨.of_sameFields same, level.symm⟩
    apply picksAlike_of_forall₂
    show List.Forall₂ _ c.items (merge contexts h c supply).state.items
    rw [state, was, put]
    exact List.rel_append (List.forall₂_same.mpr fun y _ => Peers.refl y.item)
      (.cons peers (List.forall₂_same.mpr fun y _ => Peers.refl y.item))
  · rintro set rfl weighed
    have own_weighed : g.WeighedIn set := is ▸ Handle.weighedIn_atPriority value supply
    exact (weighed.priority_eq own_weighed same).symm

/-- A definition from another place is squashed into the entry that had the same priority on a
laptop. -/
theorem squash_refreshes_derivation_of_weighed :
    let laptop : ContextSet := ⟨⟨[("laptop", 1)], by decide⟩⟩
    let vim (cell : Cell) (version source : String) (priority : Int32) : Handle Package :=
      ⟨cell, cell + 1, {
        name := "vim", version, context := "laptop", derivation := ⟨[source]⟩, priority }⟩
    let c : Chain Package := {
      key := "vim", scope := .nameArch, rules := { squashIdentical := true, keepAll := true },
      items := [vim 0 "2.0" "base" 1, vim 2 "1.0" "base" 1] }
    let o := merge (some laptop) (vim 4 "1.0" "site" 0) c ⟨6⟩
    o.result = .ok .replaced ∧
      (∃ before x behind, c.items = before ++ x :: behind ∧
        o.state = { c with
          items := before ++ ⟨6, 5, Item.withDerivation x.item ⟨["site"]⟩⟩ :: behind }) ∧
      c.PicksAlike o.state := by
  intro laptop vim c o
  have enabled : laptop.evaluate "laptop" = .ok 1 := laptop.evaluate_of_isValidName (by decide)
  have value : priorityIn (some laptop) (vim 4 "1.0" "site" 0).item = .ok 1 := enabled
  have candidate : (vim 4 "1.0" "site" 0).candidate (some laptop) ⟨6⟩ =
      (vim 4 "1.0" "site" 0).withPriority 1 6 := Handle.candidate_eq value ⟨6⟩
  have ok : o.result = .ok .replaced := by
    show (merge (some laptop) (vim 4 "1.0" "site" 0) c ⟨6⟩).result = .ok .replaced
    rw [merge_eq, value]
    decide
  obtain ⟨before, x, behind, was, state, -, -, -, alone, alike, weighed⟩ :=
    squash_refreshes_derivation c (some laptop) (vim 4 "1.0" "site" 0) ⟨6⟩ (by decide) (by decide)
      ⟨vim 2 "1.0" "base" 1, by decide, by decide⟩ ok
  have all : ∀ y ∈ c.items, y.WeighedIn laptop := by
    intro y held
    rcases List.mem_pair.mp held with rfl | rfl <;> exact enabled
  have level := weighed laptop rfl (all x (was ▸ List.mem_append_right _ List.mem_cons_self))
  refine ⟨ok, ⟨before, x, behind, was, ?_⟩, alike level⟩
  have item := alone.mp level
  rw [candidate] at item state
  have site : Item.derivation (vim 4 "1.0" "site" 0).item = ⟨["site"]⟩ := rfl
  rw [state, ← site, ← item]
  rfl

/-- Without contexts a squash brings in the priority of the definition: version 1.0 was there at
priority 1, behind 2.0 at priority 2, and becomes the active one as it is merged again at 5. -/
theorem squash_changes_pick :
    let vim (cell : Cell) (version source : String) (priority : Int32) : Handle Package :=
      ⟨cell, cell + 1, { name := "vim", version, derivation := ⟨[source]⟩, priority }⟩
    let empty : Chain Package := {
      key := "vim", scope := .nameArch, rules := { squashIdentical := true, keepAll := true } }
    let versions : Chain Package := { empty with
      items := [vim 0 "1.0" "a:1" 1, vim 2 "2.0" "a:2" 2] }
    let c := (mergeChain none versions empty ⟨6⟩).state
    let o := merge none (vim 4 "1.0" "b:1" 5) c ⟨6⟩
    c.items = versions.items ∧
      Item.directive (vim 4 "1.0" "b:1" 5).item = .ok none ∧
      c.contains (vim 4 "1.0" "b:1" 5) = false ∧
      Item.sameFields (vim 0 "1.0" "a:1" 1).item (vim 4 "1.0" "b:1" 5).item = true ∧
      o.result = .ok .replaced ∧ o.state.items = [vim 4 "1.0" "b:1" 5, vim 2 "2.0" "a:2" 2] ∧
      c.active? = some (vim 2 "2.0" "a:2" 2) ∧ o.state.active? = some (vim 4 "1.0" "b:1" 5) ∧
      ¬ c.PicksAlike o.state := by
  intro vim empty versions c o
  have active : c.active? = some (vim 2 "2.0" "a:2" 2) := by decide
  have active' : o.state.active? = some (vim 4 "1.0" "b:1" 5) := by decide
  refine ⟨by decide, by decide, by decide, by decide, by decide, by decide, active, active', ?_⟩
  rintro ⟨⟨place, is, is'⟩, -⟩
  rw [active] at is
  rw [active'] at is'
  have items : c.items = versions.items := by decide
  have items' : o.state.items = [vim 4 "1.0" "b:1" 5, vim 2 "2.0" "a:2" 2] := by decide
  rw [items] at is
  rw [items'] at is'
  match place with
  | 0 => exact absurd is (by decide)
  | 1 => exact absurd is' (by decide)
  | place + 2 => exact absurd is nofun

end Chain

end HostProfile
