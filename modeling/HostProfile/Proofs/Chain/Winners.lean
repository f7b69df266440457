import HostProfile.Chain.Basic
import Mathlib.Data.List.Basic
import Mathlib.Data.List.Induction

/-!
# Winners of a chain

Of the active definitions of one name and architecture the first of the highest priority wins. A
chain that is asked for one pair and a chain that lists the winners for all pairs choose in the same
way: the winners, looked at for one pair, are what the chain answers for it.
-/

namespace HostProfile

variable {T : Type} [Item T]

/-- Whether the handle defines the name for the architecture. -/
def Handle.defines (name : String) (arch : Option String) (h : Handle T) : Bool :=
  Item.name h.item == name && Item.arch h.item == arch

/-- The two define one name for one architecture. -/
def Rivals (a b : T) : Prop := Item.name a = Item.name b ∧ Item.arch a = Item.arch b

theorem Rivals.symm {a b : T} (rivals : Rivals a b) : Rivals b a :=
  ⟨rivals.1.symm, rivals.2.symm⟩

theorem Rivals.trans {a b c : T} (ab : Rivals a b) (bc : Rivals b c) : Rivals a c :=
  ⟨ab.1.trans bc.1, ab.2.trans bc.2⟩

theorem Handle.defines_iff {a : T} {h : Handle T} :
    h.defines (Item.name a) (Item.arch a) = true ↔ Rivals h.item a := by
  rw [defines, Bool.and_eq_true, beq_iff_eq, beq_iff_eq, Rivals]

/-! ## The best of a list -/

/-- The better of a champion and a challenger, which has to have a higher priority. -/
def outdo (best : Option (Handle T)) (h : Handle T) : Option (Handle T) :=
  match best with
  | some b => if Item.priority b.item ≥ Item.priority h.item then some b else some h
  | none => some h

theorem best?_eq (hs : List (Handle T)) :
    best? hs = (hs.filter (Item.isActive ·.item)).foldl outdo none := rfl

theorem outdo_cases (best : Option (Handle T)) (h : Handle T) :
    ∃ w, outdo best h = some w ∧ (w = h ∨ best = some w) ∧
      Item.priority h.item ≤ Item.priority w.item ∧
      ∀ b, best = some b → Item.priority b.item ≤ Item.priority w.item := by
  cases best with
  | none => exact ⟨h, rfl, .inl rfl, Int32.le_refl _, nofun⟩
  | some b =>
      rw [outdo]
      split
      · next ge =>
        refine ⟨b, rfl, .inr rfl, ge, fun _ is => ?_⟩
        exact Int32.le_of_eq (congrArg (Item.priority ·.item) (Option.some.inj is).symm)
      · next lower =>
        refine ⟨h, rfl, .inl rfl, Int32.le_refl _, fun _ is => ?_⟩
        rw [← Option.some.inj is]
        exact Int32.le_of_lt (Int32.not_le.mp lower)

theorem foldl_outdo {hs : List (Handle T)} {best : Option (Handle T)} {w : Handle T}
    (is : hs.foldl outdo best = some w) :
    (w ∈ hs ∨ best = some w) ∧ (∀ x ∈ hs, Item.priority x.item ≤ Item.priority w.item) ∧
      ∀ b, best = some b → Item.priority b.item ≤ Item.priority w.item := by
  induction hs generalizing best with
  | nil =>
      obtain rfl : best = some w := is
      exact ⟨.inr rfl, nofun, fun b same => by rw [Option.some.inj same]; exact Int32.le_refl _⟩
  | cons h rest ih =>
      obtain ⟨v, next, origin, own, outdone⟩ := outdo_cases best h
      rw [List.foldl_cons, next] at is
      obtain ⟨among, highest, before⟩ := ih is
      refine ⟨?_, List.forall_mem_cons.mpr ⟨Int32.le_trans own (before v rfl), highest⟩,
        fun b same => Int32.le_trans (outdone b same) (before v rfl)⟩
      rcases among with behind | same
      · exact .inl (List.mem_cons_of_mem h behind)
      · obtain rfl := Option.some.inj same
        exact origin.imp (fun (first : v = h) => first ▸ List.mem_cons_self) id

theorem isSome_foldl_outdo (hs : List (Handle T)) (b : Handle T) :
    ∃ w, hs.foldl outdo (some b) = some w := by
  induction hs generalizing b with
  | nil => exact ⟨b, rfl⟩
  | cons h rest ih =>
      obtain ⟨w, next, -⟩ := outdo_cases (some b) h
      rw [List.foldl_cons, next]
      exact ih w

theorem foldl_outdo_of_le {hs : List (Handle T)} {b : Handle T}
    (le : ∀ x ∈ hs, Item.priority x.item ≤ Item.priority b.item) :
    hs.foldl outdo (some b) = some b := by
  induction hs with
  | nil => rfl
  | cons h rest ih =>
      rw [List.forall_mem_cons] at le
      rw [List.foldl_cons, outdo, if_pos le.1, ih le.2]

theorem Item.lt_of_inactive {a b : T} (inactive : ¬ isActive a = true)
    (active : isActive b = true) :
    priority a < priority b :=
  Int32.lt_of_lt_of_le (Int32.not_le.mp (mt decide_eq_true inactive)) (of_decide_eq_true active)

/-- The best of a list is an active one of the list, and none in the list has a higher priority. -/
theorem best?_eq_some {hs : List (Handle T)} {w : Handle T} (is : best? hs = some w) :
    w ∈ hs ∧ Item.isActive w.item = true ∧
      ∀ x ∈ hs, Item.priority x.item ≤ Item.priority w.item := by
  rw [best?_eq] at is
  obtain ⟨among | none, highest, -⟩ := foldl_outdo is
  · obtain ⟨member, active⟩ := List.mem_filter.mp among
    refine ⟨member, active, fun x held => ?_⟩
    by_cases shown : Item.isActive x.item = true
    · exact highest x (List.mem_filter.mpr ⟨held, shown⟩)
    · exact Int32.le_of_lt (Item.lt_of_inactive shown active)
  · exact absurd none nofun

/-- A list with an active handle has a best one. -/
theorem exists_best? {hs : List (Handle T)} {x : Handle T} (member : x ∈ hs)
    (active : Item.isActive x.item = true) : ∃ w, best? hs = some w := by
  have shown : x ∈ hs.filter (Item.isActive ·.item) := List.mem_filter.mpr ⟨member, active⟩
  rw [best?_eq]
  cases actives : hs.filter (Item.isActive ·.item) with
  | nil =>
      rw [actives] at shown
      exact absurd shown List.not_mem_nil
  | cons h rest => exact isSome_foldl_outdo rest h

theorem best?_eq_none_iff {hs : List (Handle T)} :
    best? hs = none ↔ ∀ x ∈ hs, Item.isActive x.item = false := by
  constructor
  · intro nobody x member
    by_contra active
    obtain ⟨w, is⟩ := exists_best? member (eq_true_of_ne_false active)
    exact absurd (nobody.symm.trans is) nofun
  · intro inactive
    cases is : best? hs with
    | none => rfl
    | some w =>
        obtain ⟨member, active, -⟩ := best?_eq_some is
        exact absurd ((inactive w member).symm.trans active) nofun

/-- The handle is the first of those of the highest priority in the list, and active. -/
structure Handle.Wins (w : Handle T) (hs : List (Handle T)) : Prop where
  active : Item.isActive w.item = true
  first : ∃ before after, hs = before ++ w :: after ∧
    (∀ x ∈ before, Item.priority x.item < Item.priority w.item) ∧
    ∀ x ∈ after, Item.priority x.item ≤ Item.priority w.item

/-- One handle more is compared with the best of those before it. -/
theorem best?_concat (hs : List (Handle T)) (h : Handle T) :
    best? (hs ++ [h]) = if Item.isActive h.item then outdo (best? hs) h else best? hs := by
  rw [best?_eq, best?_eq, List.filter_append, List.foldl_append]
  split
  · next active => rw [List.filter_cons_of_pos (by exact active)]; rfl
  · next inactive => rw [List.filter_cons_of_neg (by exact inactive)]; rfl

theorem Handle.Wins.of_best? {hs : List (Handle T)} {w : Handle T} (is : best? hs = some w) :
    w.Wins hs := by
  induction hs using List.reverseRecOn generalizing w with
  | nil => cases is
  | append_singleton hs h ih =>
      have extended {v : Handle T} (wins : v.Wins hs)
          (le : Item.priority h.item ≤ Item.priority v.item) : v.Wins (hs ++ [h]) := by
        obtain ⟨active, before, after, rfl, lower, upper⟩ := wins
        refine ⟨active, before, after ++ [h], by simp, lower, fun x later => ?_⟩
        rcases List.mem_append.mp later with inside | last
        · exact upper x inside
        · exact List.mem_singleton.mp last ▸ le
      rw [best?_concat] at is
      split at is
      case isFalse inactive =>
        have wins := ih is
        exact extended wins (Int32.le_of_lt (Item.lt_of_inactive inactive wins.active))
      case isTrue active =>
        cases best : best? hs with
        | none =>
            rw [best] at is
            obtain rfl := Option.some.inj is
            refine ⟨active, hs, [], rfl, fun x member => ?_, nofun⟩
            have inactive := best?_eq_none_iff.mp best x member
            exact Item.lt_of_inactive (by simp [inactive]) active
        | some b =>
            rw [best, outdo] at is
            split at is
            · next ge => exact Option.some.inj is ▸ extended (ih best) ge
            · next lower =>
              obtain rfl := Option.some.inj is
              refine ⟨active, hs, [], rfl, fun x member => ?_, nofun⟩
              exact Int32.lt_of_le_of_lt ((best?_eq_some best).2.2 x member)
                (Int32.not_le.mp lower)

/-- What is chosen is what wins. -/
theorem best?_eq_some_iff {hs : List (Handle T)} {w : Handle T} :
    best? hs = some w ↔ w.Wins hs := by
  refine ⟨.of_best?, fun wins => ?_⟩
  obtain ⟨active, before, after, rfl, lower, upper⟩ := wins
  have self : (before ++ w :: after).filter (Item.isActive ·.item) =
      before.filter (Item.isActive ·.item) ++ w :: after.filter (Item.isActive ·.item) := by
    rw [List.filter_append, List.filter_cons_of_pos (by exact active)]
  have rest : ∀ x ∈ after.filter (Item.isActive ·.item),
      Item.priority x.item ≤ Item.priority w.item :=
    fun x member => upper x (List.mem_filter.mp member).1
  rw [best?_eq, self, List.foldl_append, List.foldl_cons]
  change (after.filter _).foldl outdo (outdo (best? before) w) = some w
  cases best : best? before with
  | none => exact foldl_outdo_of_le rest
  | some b =>
      have less := lower b (best?_eq_some best).1
      rw [outdo, if_neg (Int32.not_le.mpr less)]
      exact foldl_outdo_of_le rest

namespace Chain

/-! ## The winners for all names and architectures -/

variable {c : Chain T} {w x : Handle T} {name : String} {arch : Option String}

/-- A handle competes with the first winner for its name and architecture. -/
theorem compete_cons (v : Handle T) (rest : List (Handle T)) (h : Handle T) :
    compete (v :: rest) h =
      if v.defines (Item.name h.item) (Item.arch h.item) then
        (if Item.priority v.item < Item.priority h.item then h else v) :: rest
      else v :: compete rest h := rfl

theorem defines_eq_of_rivals {v h : Handle T} (rivals : Rivals v.item h.item) (name : String)
    (arch : Option String) : v.defines name arch = h.defines name arch := by
  rw [Handle.defines, Handle.defines, rivals.1, rivals.2]

/-- The winners for other names and architectures stay. -/
theorem filter_compete_of_other {h : Handle T} (other : h.defines name arch = false)
    (winners : List (Handle T)) :
    (compete winners h).filter (Handle.defines name arch) =
      winners.filter (Handle.defines name arch) := by
  induction winners with
  | nil => simp [compete, other]
  | cons v rest ih =>
      rw [compete_cons]
      split
      · next rivals =>
        have same := (defines_eq_of_rivals (Handle.defines_iff.mp rivals) name arch).trans other
        have next : (if Item.priority v.item < Item.priority h.item then h else v).defines name arch
            = false := by split <;> assumption
        rw [List.filter_cons_of_neg (by simp [next]), List.filter_cons_of_neg (by simp [same])]
      · rw [List.filter_cons, List.filter_cons, ih]

/-- The winner for the name and architecture of a handle has to outdo it. -/
theorem filter_compete_of_defines {h : Handle T} (own : h.defines name arch = true)
    {winners : List (Handle T)} {best : Option (Handle T)}
    (alone : winners.filter (Handle.defines name arch) = best.toList) :
    (compete winners h).filter (Handle.defines name arch) = (outdo best h).toList := by
  induction winners with
  | nil =>
      obtain rfl : best = none := by
        cases best with
        | none => rfl
        | some b => exact absurd alone nofun
      simp [compete, own, outdo]
  | cons v rest ih =>
      rw [compete_cons]
      cases same : v.defines name arch with
      | true =>
          have rivals : v.defines (Item.name h.item) (Item.arch h.item) = true := by
            simp only [Handle.defines, Bool.and_eq_true, beq_iff_eq] at own same ⊢
            exact ⟨same.1.trans own.1.symm, same.2.trans own.2.symm⟩
          rw [List.filter_cons_of_pos same] at alone
          obtain ⟨b, rfl⟩ : ∃ b, best = some b := by
            cases best with
            | none => exact absurd alone nofun
            | some b => exact ⟨b, rfl⟩
          obtain ⟨rfl, none_left⟩ := List.cons.inj alone
          rw [if_pos rivals, outdo]
          by_cases lower : Item.priority v.item < Item.priority h.item
          · rw [if_pos lower, if_neg (Int32.not_le.mpr lower), List.filter_cons_of_pos own,
              none_left]
            rfl
          · rw [if_neg lower, if_pos (Int32.not_lt.mp lower), List.filter_cons_of_pos same,
              none_left]
            rfl
      | false =>
          have others : ¬ v.defines (Item.name h.item) (Item.arch h.item) = true := fun rivals => by
            rw [defines_eq_of_rivals (Handle.defines_iff.mp rivals), own] at same
            exact absurd same nofun
          rw [List.filter_cons_of_neg (by simp [same])] at alone
          rw [if_neg others, List.filter_cons_of_neg (by simp [same]), ih alone]

theorem filter_foldl_compete (hs : List (Handle T)) {winners : List (Handle T)}
    {best : Option (Handle T)}
    (alone : winners.filter (Handle.defines name arch) = best.toList) :
    (hs.foldl compete winners).filter (Handle.defines name arch) =
      ((hs.filter (Handle.defines name arch)).foldl outdo best).toList := by
  induction hs generalizing winners best with
  | nil => exact alone
  | cons h rest ih =>
      rw [List.foldl_cons]
      cases own : h.defines name arch with
      | true =>
          rw [List.filter_cons_of_pos own, List.foldl_cons]
          exact ih (filter_compete_of_defines own alone)
      | false =>
          rw [List.filter_cons_of_neg (by simp [own])]
          exact ih ((filter_compete_of_other own winners).trans alone)

/-- The winner for a name and architecture is what the chain answers for them. -/
theorem filter_resolved (c : Chain T) (name : String) (arch : Option String) :
    c.resolved.filter (Handle.defines name arch) = (c.activeFor? name arch).toList := by
  have nobody : ([] : List (Handle T)).filter (Handle.defines name arch) =
      (none : Option (Handle T)).toList := rfl
  rw [resolved, filter_foldl_compete _ nobody, List.filter_comm]
  rfl

theorem mem_resolved_iff :
    w ∈ c.resolved ↔ c.activeFor? (Item.name w.item) (Item.arch w.item) = some w := by
  have own : w.defines (Item.name w.item) (Item.arch w.item) = true :=
    Handle.defines_iff.mpr ⟨rfl, rfl⟩
  rw [← Option.mem_toList, ← filter_resolved, List.mem_filter, and_iff_left own]

/-- A winner is an active entry, and no rival of it in the chain has a higher priority. -/
theorem highest_of_mem_resolved (won : w ∈ c.resolved) :
    w ∈ c.items ∧ Item.isActive w.item = true ∧ ∀ x ∈ c.items, Rivals x.item w.item →
      Item.priority x.item ≤ Item.priority w.item := by
  obtain ⟨among, active, highest⟩ := best?_eq_some (mem_resolved_iff.mp won)
  refine ⟨(List.mem_filter.mp among).1, active, fun x held rivals => ?_⟩
  exact highest x (List.mem_filter.mpr ⟨held, Handle.defines_iff.mpr rivals⟩)

/-- Every active entry has a rival among the winners, or is one. -/
theorem exists_resolved (held : x ∈ c.items) (active : Item.isActive x.item = true) :
    ∃ w ∈ c.resolved, Rivals w.item x.item := by
  have own : x ∈ c.items.filter (Handle.defines (Item.name x.item) (Item.arch x.item)) :=
    List.mem_filter.mpr ⟨held, Handle.defines_iff.mpr ⟨rfl, rfl⟩⟩
  obtain ⟨w, is⟩ := exists_best? own active
  have rivals := Handle.defines_iff.mp (List.mem_filter.mp (best?_eq_some is).1).2
  refine ⟨w, mem_resolved_iff.mpr ?_, rivals⟩
  rw [rivals.1, rivals.2]
  exact is

/-- The first entry wins when it is active and no rival of it has a higher priority. -/
theorem mem_resolved_of_first {rest : List (Handle T)} (first : c.items = x :: rest)
    (active : Item.isActive x.item = true) (highest : ∀ y ∈ c.items, Rivals y.item x.item →
      Item.priority y.item ≤ Item.priority x.item) : x ∈ c.resolved := by
  have own : x.defines (Item.name x.item) (Item.arch x.item) = true :=
    Handle.defines_iff.mpr ⟨rfl, rfl⟩
  rw [mem_resolved_iff]
  show best? (c.items.filter (Handle.defines (Item.name x.item) (Item.arch x.item))) = some x
  rw [best?_eq, first, List.filter_cons_of_pos own, List.filter_cons_of_pos (by exact active)]
  refine foldl_outdo_of_le fun y among => ?_
  obtain ⟨behind, rivals⟩ := List.mem_filter.mp (List.mem_filter.mp among).1
  exact highest y (first ▸ List.mem_cons_of_mem x behind) (Handle.defines_iff.mp rivals)

/-- No two winners are rivals. -/
theorem pairwise_resolved (c : Chain T) :
    c.resolved.Pairwise fun v w => ¬ Rivals v.item w.item := by
  have single (name : String) (arch : Option String) :
      (c.resolved.filter (Handle.defines name arch)).length ≤ 1 := by
    rw [filter_resolved]
    cases c.activeFor? name arch <;> simp
  generalize c.resolved = winners at single
  induction winners with
  | nil => exact .nil
  | cons v rest ih =>
      refine List.pairwise_cons.mpr ⟨fun w member rivals => ?_, ih fun name arch => ?_⟩
      · have both := single (Item.name v.item) (Item.arch v.item)
        rw [List.filter_cons_of_pos (Handle.defines_iff.mpr ⟨rfl, rfl⟩), List.length_cons] at both
        have other := List.mem_filter.mpr ⟨member, Handle.defines_iff.mpr rivals.symm⟩
        exact absurd (List.length_pos_of_mem other) (by omega)
      · exact Nat.le_trans ((List.sublist_cons_self v rest).filter _).length_le (single name arch)

end Chain

end HostProfile
