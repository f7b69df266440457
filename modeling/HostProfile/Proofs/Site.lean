import HostProfile.Proofs.Chain.Idle
import HostProfile.Proofs.Replay

/-!
# Merges at places of a container

A container keeps its chains at places, and a merge looks at the chain of one place only. So a run
of merges comes to a run at each place: in which order definitions of different places come does not
matter, except for the new cells that their copies lie in. A definition that meets its chain again
finds there what its own merge left, however many others came between.
-/

namespace HostProfile

variable {σ β π T : Type} [Item T]

/-- What a merge at a place looks at: the chain there, and the contexts in which definitions are
evaluated. -/
structure Site (T : Type) where
  contexts : Option ContextSet
  chain : Chain T

namespace Site

/-- Merges a definition into the chain of the place. -/
def merge (h : Handle T) : Action (Site T) Change := fun site supply =>
  (Chain.merge site.contexts h site.chain supply).mapState fun chain => { site with chain }

theorem le_next_supply_merge (h : Handle T) (a : Site T) (supply : Supply) :
    supply.next ≤ (merge h a supply).supply.next :=
  Chain.le_next_supply_merge a.contexts h a.chain supply

/-- The places differ at most by the new cells that copies lie in, which are those from `base`
on. -/
structure Alike (base : Cell) (a b : Site T) : Prop where
  contexts : a.contexts = b.contexts
  chain : a.chain.relabel (Handle.blur base) = b.chain.relabel (Handle.blur base)

namespace Alike

variable {base : Cell} {a b c : Site T}

omit [Item T] in
theorem refl (base : Cell) (a : Site T) : Alike base a a := ⟨rfl, rfl⟩

omit [Item T] in
theorem symm (alike : Alike base a b) : Alike base b a :=
  ⟨alike.contexts.symm, alike.chain.symm⟩

omit [Item T] in
theorem trans (first : Alike base a b) (second : Alike base b c) : Alike base a c :=
  ⟨first.contexts.trans second.contexts, first.chain.trans second.chain⟩

variable {h : Handle T} {u w : Supply}

variable [LawfulItem T]

/-- A handle from outside is merged alike, whatever new cells there are. -/
theorem merge (alike : Alike base a b) (old : h.cell < base) (hu : base ≤ u.next)
    (hw : base ≤ w.next) :
    (Site.merge h a u).result = (Site.merge h b w).result ∧
      Alike base (Site.merge h a u).state (Site.merge h b w).state := by
  obtain ⟨contexts, chain⟩ := alike
  have merged := Chain.merge_blur chain a.contexts old hu hw
  unfold Site.merge
  rw [← contexts]
  exact ⟨merged.1, rfl, merged.2⟩

/-- So are many, one after another. -/
theorem each {hs : List (Handle T)} (alike : Alike base a b) (old : ∀ h ∈ hs, h.cell < base)
    (hu : base ≤ u.next) (hw : base ≤ w.next) :
    (Action.each Site.merge hs a u).result = (Action.each Site.merge hs b w).result ∧
      Alike base (Action.each Site.merge hs a u).state (Action.each Site.merge hs b w).state := by
  induction hs generalizing a b u w with
  | nil => exact ⟨rfl, alike⟩
  | cons h rest ih =>
      obtain ⟨result, state⟩ := alike.merge (old h List.mem_cons_self) hu hw
      rw [Action.each_cons, Action.each_cons]
      cases merged : (Site.merge h a u).result with
      | error e =>
          rw [Outcome.andThen_of_error merged, Outcome.andThen_of_error (result.symm.trans merged)]
          exact ⟨rfl, state⟩
      | ok change =>
          rw [Outcome.andThen_of_ok merged, Outcome.andThen_of_ok (result.symm.trans merged)]
          obtain ⟨results, states⟩ := ih state
            (fun h member => old h (List.mem_cons_of_mem _ member))
            (Nat.le_trans hu (le_next_supply_merge h a u))
            (Nat.le_trans hw (le_next_supply_merge h b w))
          exact ⟨congrArg (Except.map _) results, states⟩

end Alike

end Site

/-! ## Containers with places -/

/-- A container that keeps its chains at places: the merge of `x` is one of `handle x` at `place x`,
and does nothing elsewhere. -/
structure Sited (σ β π T : Type) [Item T] where
  merge : β → Action σ Change
  /-- What the container is when it is in order. -/
  sound : σ → Prop
  handle : β → Handle T
  place : β → π
  site : σ → π → Site T
  keeps : ∀ {s}, sound s → ∀ x supply, sound (merge x s supply).state
  here : ∀ {s}, sound s → ∀ x supply, Outcome.Alike (fun s' there => site s' (place x) = there)
    (merge x s supply) (Site.merge (handle x) (site s (place x)) supply)
  elsewhere : ∀ {s}, sound s → ∀ x supply {p}, p ≠ place x →
    site (merge x s supply).state p = site s p

namespace Sited

variable (S : Sited σ β π T)

/-- The definitions of a list that belong to a place, in their order. -/
def share [DecidableEq π] (xs : List β) (p : π) : List (Handle T) :=
  (xs.filter fun x => S.place x = p).map S.handle

/-- What becomes of a place when its share of a list alone is merged. -/
def alone [DecidableEq π] (base : Cell) (xs : List β) (s : σ) (p : π) : Outcome (Site T) Change :=
  Action.each Site.merge (S.share xs p) (S.site s p) ⟨base⟩

/-- An outcome in the container is gathered from outcomes at its places: it succeeds when all of
them do, reports a change when one of them does, and leaves at each place what is left there, but
for the cells of new copies. -/
structure Gathers (base : Cell) (o : Outcome σ Change) (places : π → Outcome (Site T) Change) :
    Prop where
  fails : ∀ e, o.result = .error e → ∃ p e', (places p).result = .error e'
  succeeds : ∀ change, o.result = .ok change → ∀ p, ∃ change', (places p).result = .ok change'
  changes : ∀ change, o.result = .ok change →
    (change.isChange = true ↔ ∃ p change', (places p).result = .ok change' ∧
      change'.isChange = true)
  sites : ∀ change, o.result = .ok change → ∀ p, (S.site o.state p).Alike base (places p).state

variable {S} {base : Cell} {x : β} {rest xs ys : List β} {p : π} {s : σ} {supply : Supply}
  {change : Change} {e : MergeError}

theorem share_cons_self [DecidableEq π] :
    S.share (x :: rest) (S.place x) = S.handle x :: S.share rest (S.place x) := by
  rw [share, List.filter_cons_of_pos (by simp), List.map_cons, share]

theorem share_cons_of_ne [DecidableEq π] (other : p ≠ S.place x) :
    S.share (x :: rest) p = S.share rest p := by
  rw [share, List.filter_cons_of_neg (by simpa using other.symm), share]

theorem exists_of_mem_share [DecidableEq π] {h : Handle T} (member : h ∈ S.share xs p) :
    ∃ x ∈ xs, S.handle x = h := by
  obtain ⟨x, among, is⟩ := List.mem_map.mp member
  exact ⟨x, (List.mem_filter.mp among).1, is⟩

theorem mem_share [DecidableEq π] (member : x ∈ xs) : S.handle x ∈ S.share xs (S.place x) :=
  List.mem_map_of_mem (List.mem_filter.mpr ⟨member, decide_eq_true rfl⟩)

/-- What holds of the definitions of one list holds of those of another with the same shares. -/
theorem forall_of_share_eq [DecidableEq π] {P : Handle T → Prop} (same : S.share xs = S.share ys)
    (all : ∀ x ∈ xs, P (S.handle x)) : ∀ y ∈ ys, P (S.handle y) := by
  intro y member
  have shared := mem_share (S := S) member
  rw [← same] at shared
  obtain ⟨x, among, is⟩ := exists_of_mem_share shared
  exact is ▸ all x among

theorem le_next_supply_merge (holds : S.sound s) (x : β) (supply : Supply) :
    supply.next ≤ (S.merge x s supply).supply.next := by
  rw [(S.here holds x supply).supply]
  exact Site.le_next_supply_merge ..

theorem sound_each (holds : S.sound s) (xs : List β) (supply : Supply) :
    S.sound (Action.each S.merge xs s supply).state :=
  Action.each_keeps (P := S.sound) (fun x _ _ supply holds => S.keeps holds x supply) s supply holds

/-- A run hands out cells and takes none back. -/
theorem le_next_supply_each (holds : S.sound s) (xs : List β) (supply : Supply) :
    supply.next ≤ (Action.each S.merge xs s supply).supply.next := by
  refine (Action.each_invariant (P := fun s left => S.sound s ∧ supply.next ≤ left.next)
    (fun x _ s left ⟨holds, le⟩ => ?_) s supply ⟨holds, Nat.le_refl _⟩).2
  exact ⟨S.keeps holds x left, Nat.le_trans le (le_next_supply_merge holds x left)⟩

/-! ## Runs gathered from the places -/

/-- What one more merge at the place `q` makes of the answer at the place `p`. -/
theorem result_map_of_step [DecidableEq π] {result : Except MergeError Change} {first c : Change}
    {q p : π} (ok : result = .ok c) :
    ∃ d, result.map (if p = q then first.aggregate else id) = .ok d ∧
      (d.isChange = true ↔ (p = q ∧ first.isChange = true) ∨ c.isChange = true) := by
  subst ok
  refine ⟨_, rfl, ?_⟩
  by_cases same : p = q <;> simp [same]

/-- A first merge at one place is gathered with what comes behind it. -/
theorem Gathers.cons [DecidableEq π] {o : Outcome σ Change}
    {others places : π → Outcome (Site T) Change} {first : Change} (q : π)
    (gathers : S.Gathers base o others)
    (runs : ∀ p, (places p).result =
        (others p).result.map (if p = q then first.aggregate else id) ∧
      (others p).state.Alike base (places p).state) :
    S.Gathers base (o.map first.aggregate) places where
  fails e failed := by
    cases result : o.result with
    | ok c =>
        rw [Outcome.result_map, result] at failed
        exact absurd failed nofun
    | error e' =>
        obtain ⟨p, e', failed'⟩ := gathers.fails e' result
        exact ⟨p, e', by rw [(runs p).1, failed']; rfl⟩
  succeeds change ok p := by
    obtain ⟨a, result, -⟩ := Outcome.result_map_eq_ok ok
    obtain ⟨c, behind⟩ := gathers.succeeds a result p
    obtain ⟨d, is, -⟩ := result_map_of_step (q := q) (p := p) behind
    exact ⟨d, (runs p).1.trans is⟩
  changes change ok := by
    obtain ⟨a, result, rfl⟩ := Outcome.result_map_eq_ok ok
    rw [Change.isChange_aggregate, Bool.or_eq_true, gathers.changes a result]
    constructor
    · rintro (changed | ⟨p, c, behind, changed⟩)
      · obtain ⟨c, behind⟩ := gathers.succeeds a result q
        obtain ⟨d, is, reports⟩ := result_map_of_step (q := q) (p := q) behind
        exact ⟨q, d, (runs q).1.trans is, reports.mpr (.inl ⟨rfl, changed⟩)⟩
      · obtain ⟨d, is, reports⟩ := result_map_of_step (q := q) (p := p) behind
        exact ⟨p, d, (runs p).1.trans is, reports.mpr (.inr changed)⟩
    · rintro ⟨p, d, is, changed⟩
      obtain ⟨c, behind⟩ := gathers.succeeds a result p
      obtain ⟨_, is', reports⟩ := result_map_of_step (q := q) (p := p) behind
      rw [(runs p).1, is'] at is
      obtain rfl := Except.ok.inj is
      exact (reports.mp changed).imp (·.2) fun changed => ⟨p, c, behind, changed⟩
  sites change ok p := by
    obtain ⟨a, result, -⟩ := Outcome.result_map_eq_ok ok
    exact (gathers.sites a result p).trans (runs p).2

variable [LawfulItem T]

section

variable (old : ∀ y ∈ x :: rest, (S.handle y).cell < base) (holds : S.sound s)
  (new : base ≤ supply.next)

include old holds new

/-- The first merge of a run at its place, with nothing done elsewhere. -/
theorem merge_alone :
    (Site.merge (S.handle x) (S.site s (S.place x)) ⟨base⟩).result = (S.merge x s supply).result ∧
      (S.site (S.merge x s supply).state (S.place x)).Alike base
        (Site.merge (S.handle x) (S.site s (S.place x)) ⟨base⟩).state := by
  obtain ⟨result, -, state⟩ := S.here holds x supply
  have alone := (Site.Alike.refl base (S.site s (S.place x))).merge (old x List.mem_cons_self) new
    (Nat.le_refl base : base ≤ (⟨base⟩ : Supply).next)
  rw [result, state]
  exact ⟨alone.1.symm, alone.2⟩

variable [DecidableEq π]

theorem alone_of_error (failed : (S.merge x s supply).result = .error e) :
    (S.alone base (x :: rest) s (S.place x)).result = .error e := by
  have alone := (merge_alone old holds new).1.trans failed
  rw [Sited.alone, share_cons_self, Action.each_cons, Outcome.andThen_of_error alone]

/-- At each place the rest of a run goes on from what its first merge has left. -/
theorem alone_of_ok (ok : (S.merge x s supply).result = .ok change) (p : π) :
    let others := S.alone base rest (S.merge x s supply).state p
    (S.alone base (x :: rest) s p).result =
        others.result.map (if p = S.place x then change.aggregate else id) ∧
      others.state.Alike base (S.alone base (x :: rest) s p).state := by
  unfold alone
  by_cases at_place : p = S.place x
  · subst at_place
    obtain ⟨result, state⟩ := merge_alone old holds new
    rw [ok] at result
    have left : base ≤ (Site.merge (S.handle x) (S.site s (S.place x)) ⟨base⟩).supply.next :=
      Site.le_next_supply_merge ..
    have old_share (h : Handle T) (member : h ∈ S.share rest (S.place x)) : h.cell < base := by
      obtain ⟨y, among, rfl⟩ := exists_of_mem_share member
      exact old y (List.mem_cons_of_mem x among)
    have others := state.each old_share (Nat.le_refl base : base ≤ (⟨base⟩ : Supply).next) left
    rw [share_cons_self, Action.each_cons, Outcome.andThen_of_ok result, if_pos rfl]
    exact ⟨congrArg (Except.map _) others.1.symm, others.2⟩
  · rw [share_cons_of_ne at_place, S.elsewhere holds x supply at_place, if_neg at_place]
    refine ⟨?_, .refl base _⟩
    cases (Action.each Site.merge (S.share rest p) (S.site s p) ⟨base⟩).result <;> rfl

end

/-- A run is gathered from what the shares of the places come to alone. -/
theorem gathers_each [DecidableEq π] (old : ∀ x ∈ xs, (S.handle x).cell < base)
    (holds : S.sound s) (new : base ≤ supply.next) :
    S.Gathers base (Action.each S.merge xs s supply) (S.alone base xs s) := by
  induction xs generalizing s supply with
  | nil =>
      refine ⟨nofun, fun _ _ _ => ⟨_, rfl⟩, ?_, fun _ _ p => .refl base _⟩
      intro change ok
      cases ok
      refine ⟨nofun, ?_⟩
      rintro ⟨p, change', ok, changed⟩
      cases ok
      exact changed
  | cons x rest ih =>
      rw [Action.each_cons]
      cases result : (S.merge x s supply).result with
      | error e =>
          rw [Outcome.andThen_of_error result]
          have failed := alone_of_error old holds new result
          exact ⟨fun _ _ => ⟨S.place x, e, failed⟩, nofun, nofun, nofun⟩
      | ok change =>
          rw [Outcome.andThen_of_ok result]
          have others := ih (fun y member => old y (List.mem_cons_of_mem x member))
            (S.keeps holds x supply) (Nat.le_trans new (le_next_supply_merge holds x supply))
          exact others.cons (S.place x) (alone_of_ok old holds new result)

/-- Two runs that bring the same to each place, in the same order there, succeed together, answer
the same and leave the same, but for the cells of new copies. -/
theorem each_of_share_eq [DecidableEq π] (same : S.share xs = S.share ys)
    (old : ∀ x ∈ xs, (S.handle x).cell < base) (holds : S.sound s) {u w : Supply}
    (hu : base ≤ u.next) (hw : base ≤ w.next)
    (ok : (Action.each S.merge xs s u).result = .ok change) :
    (Action.each S.merge ys s w).result = .ok change ∧ ∀ p,
      (S.site (Action.each S.merge xs s u).state p).Alike base
        (S.site (Action.each S.merge ys s w).state p) := by
  have alone : S.alone base xs s = S.alone base ys s := by
    unfold Sited.alone
    rw [same]
  have first := gathers_each old holds hu
  have second := gathers_each (forall_of_share_eq (P := fun h => h.cell < base) same old) holds hw
  rw [← alone] at second
  cases result : (Action.each S.merge ys s w).result with
  | error e =>
      obtain ⟨p, e', failed⟩ := second.fails e result
      obtain ⟨c, ok'⟩ := first.succeeds change ok p
      rw [failed] at ok'
      exact absurd ok' nofun
  | ok change' =>
      have changed : change'.isChange = change.isChange :=
        Bool.eq_iff_iff.mpr ((second.changes _ result).trans (first.changes _ ok).symm)
      refine ⟨?_, fun p => (first.sites _ ok p).trans (second.sites _ result p).symm⟩
      rw [Action.answer_each result, Action.answer_each ok, changed]

theorem each_eq_ok_iff [DecidableEq π] (same : S.share xs = S.share ys)
    (old : ∀ x ∈ xs, (S.handle x).cell < base) (holds : S.sound s) {u w : Supply}
    (hu : base ≤ u.next) (hw : base ≤ w.next) :
    (Action.each S.merge xs s u).result = .ok change ↔
      (Action.each S.merge ys s w).result = .ok change :=
  ⟨fun ok => (each_of_share_eq same old holds hu hw ok).1,
    fun ok => (each_of_share_eq same.symm
      (forall_of_share_eq (P := fun h => h.cell < base) same old) holds hw hu ok).1⟩

/-! ## Runs done twice -/

/-- The definitions lie at different places or have different keys. -/
def Apart (S : Sited σ β π T) (scope : KeyScope) (x y : β) : Prop :=
  S.place x = S.place y → scope.collides (S.handle x).item (S.handle y).item = false

/-- Merging the definition changes nothing. -/
def Idle (S : Sited σ β π T) (x : β) (s : σ) : Prop :=
  (S.site s (S.place x)).chain.Idle (S.site s (S.place x)).contexts (S.handle x)

omit [LawfulItem T] in
theorem Idle.congr {s' : σ} (idle : S.Idle x s) (same : S.site s' = S.site s) : S.Idle x s' := by
  rw [Idle, same]
  exact idle

/-- The definitions of a list can be told by their cells, from each other and from what the
container holds. -/
structure Ready (S : Sited σ β π T) (scope : KeyScope) (xs : List β) (s : σ) (supply : Supply) :
    Prop where
  sound : S.sound s
  old : ∀ x ∈ xs, (S.handle x).cell < supply.next
  one : ∀ x ∈ xs, ∀ y ∈ xs, (S.handle x).cell = (S.handle y).cell → S.handle x = S.handle y
  scope : ∀ p, (S.site s p).chain.scope = scope
  guarded : ∀ x ∈ xs, (S.site s (S.place x)).chain.Guarded (S.handle x)

variable {scope : KeyScope} {y : β}

theorem Ready.merge (ready : S.Ready scope xs s supply) (member : x ∈ xs) :
    S.Ready scope xs (S.merge x s supply).state (S.merge x s supply).supply := by
  have here := S.here ready.sound x supply
  refine ⟨S.keeps ready.sound x supply, fun y among => ?old, ready.one, fun p => ?scope,
    fun y among => ?guarded⟩
  case old =>
    exact Nat.lt_of_lt_of_le (ready.old y among) (le_next_supply_merge ready.sound x supply)
  case scope =>
    by_cases at_place : p = S.place x
    · rw [at_place, here.state]
      exact Chain.scope_merge.trans (ready.scope (S.place x))
    · rw [S.elsewhere ready.sound x supply at_place]
      exact ready.scope p
  case guarded =>
    by_cases at_place : S.place y = S.place x
    · have before := ready.guarded y among
      rw [at_place] at before ⊢
      rw [here.state]
      refine before.merge (ready.old y among) (fun same => ?_) _
      rw [ready.one x member y among same]
      exact KeyScope.collides_refl _ _
    · rw [S.elsewhere ready.sound x supply at_place]
      exact ready.guarded y among

/-- What was merged is idle. -/
theorem idle_merge_self (holds : S.sound s) (ok : (S.merge x s supply).result = .ok change) :
    S.Idle x (S.merge x s supply).state := by
  obtain ⟨result, -, state⟩ := S.here holds x supply
  rw [Idle, state]
  exact Chain.idle_merge (result.symm.trans ok)

/-- What is idle stays so when another definition is merged. -/
theorem Idle.merge (idle : S.Idle x s) (ready : S.Ready scope xs s supply) (hx : x ∈ xs)
    (hy : y ∈ xs) (apart : S.Apart scope x y) : S.Idle x (S.merge y s supply).state := by
  by_cases at_place : S.place x = S.place y
  · have guarded := ready.guarded x hx
    have after := (ready.merge hy).guarded x hx
    have other : (S.site s (S.place x)).chain.collides (S.handle x).item (S.handle y) = false := by
      rw [Chain.collides, ready.scope, KeyScope.collides_comm]
      exact apart at_place
    unfold Idle at idle ⊢
    rw [at_place] at idle guarded after other ⊢
    rw [(S.here ready.sound y supply).state] at after ⊢
    exact Chain.Idle.merge idle guarded after other
  · rw [Idle, S.elsewhere ready.sound y supply at_place]
    exact idle

/-- Behind a run that succeeds all of its definitions are idle. -/
theorem idle_each {all : List β} (within : ∀ x ∈ xs, x ∈ all)
    (apart : xs.Pairwise (S.Apart scope)) (ready : S.Ready scope all s supply)
    (ok : (Action.each S.merge xs s supply).result = .ok change) :
    ∀ x ∈ xs, S.Idle x (Action.each S.merge xs s supply).state := by
  induction xs generalizing s supply change with
  | nil => exact fun _ member => absurd member List.not_mem_nil
  | cons y rest ih =>
      have first := within y List.mem_cons_self
      have others (x : β) (member : x ∈ rest) := within x (List.mem_cons_of_mem y member)
      obtain ⟨done, merged, then_rest⟩ := Outcome.andThen_eq_of_ok ok
      rw [Action.each_cons] at ok ⊢
      rw [then_rest] at ok ⊢
      obtain ⟨behind, ok', -⟩ := Outcome.result_map_eq_ok ok
      rw [List.pairwise_cons] at apart
      have ready' := ready.merge first
      intro x member
      rcases List.mem_cons.mp member with rfl | member
      · -- Every merge of the rest leaves the first definition idle.
        refine (Action.each_invariant (P := fun s supply => S.Ready scope all s supply ∧ S.Idle x s)
          (fun y among s supply ⟨ready, idle⟩ => ?_) _ _
          ⟨ready', idle_merge_self ready.sound merged⟩).2
        exact ⟨ready.merge (others y among),
          idle.merge ready first (others y among) (apart.1 y among)⟩
      · exact ih others apart.2 ready' ok' x member

omit [LawfulItem T] in
/-- A run of idle definitions changes nothing anywhere. -/
theorem each_of_idle (holds : S.sound s) (idle : ∀ x ∈ xs, S.Idle x s) (supply : Supply) :
    (Action.each S.merge xs s supply).result = .ok .unchanged ∧
      S.site (Action.each S.merge xs s supply).state = S.site s := by
  induction xs generalizing s supply with
  | nil => exact ⟨rfl, rfl⟩
  | cons x rest ih =>
      obtain ⟨result, -, state⟩ := S.here holds x supply
      have unchanged := result.trans (idle x List.mem_cons_self supply)
      have same : S.site (S.merge x s supply).state = S.site s := by
        funext p
        by_cases at_place : p = S.place x
        · rw [at_place, state]
          have stays := Chain.state_of_merge_eq_unchanged (idle x List.mem_cons_self supply)
          exact congrArg (fun chain => { S.site s (S.place x) with chain }) stays
        · exact S.elsewhere holds x supply at_place
      have others := ih (S.keeps holds x supply)
        (fun y member => (idle y (List.mem_cons_of_mem x member)).congr same)
        (S.merge x s supply).supply
      rw [Action.each_cons, Outcome.andThen_of_ok unchanged, Outcome.result_map, others.1]
      exact ⟨rfl, others.2.trans same⟩

/-- A run of definitions that are apart from each other, done again after it succeeded, changes
nothing. -/
theorem each_each (apart : xs.Pairwise (S.Apart scope)) (ready : S.Ready scope xs s supply)
    (ok : (Action.each S.merge xs s supply).result = .ok change) (later : Supply) :
    let after := (Action.each S.merge xs s supply).state
    (Action.each S.merge xs after later).result = .ok .unchanged ∧
      S.site (Action.each S.merge xs after later).state = S.site after := by
  exact each_of_idle (sound_each ready.sound xs supply) (idle_each (fun _ => id) apart ready ok)
    later

end Sited

end HostProfile
