import HostProfile.Proofs.Context.Name
import HostProfile.Proofs.ItemTable.Crowned

/-!
# The order of merges

Under the standard rules a table that was empty holds the champions of the definitions that were
merged into it. So the order of the merges does not matter, but for the derivations, where several
of them have the same fields, and for the choice between definitions with different keys that share
the lead for one name and architecture: of these the one whose key came first wins.
-/

namespace HostProfile.ItemTable

variable {T : Type} [Item T] {t : ItemTable T} {set : ContextSet} {base : Cell}
  {hs hs' : List (Handle T)} {u w : Supply}

/-- An empty table that merges by the standard rules and evaluates definitions in the contexts, and
whose bucket scope is not finer than its collision scope. -/
structure Vacant (set : ContextSet) (t : ItemTable T) : Prop where
  reachable : t.Reachable
  rules : t.rules = .standard
  contexts : t.contexts = some set
  coarser : t.bucket.parts ≤ t.scope.parts
  empty : t.handles = []

/-- What is left of a run over the list. -/
abbrev merged (hs : List (Handle T)) (t : ItemTable T) (supply : Supply) : ItemTable T :=
  (Action.each merge hs t supply).state

/-- Merging changes nothing of a table but the chains. -/
theorem settings_merged (hs : List (Handle T)) (t : ItemTable T) (supply : Supply) :
    t.merged hs supply = { t with table := (t.merged hs supply).table } :=
  Action.each_keeps (P := fun t' => t' = { t with table := t'.table })
    (fun h _ t' left same => by rw [same]; rfl) t supply rfl

theorem bucket_merged (hs : List (Handle T)) (t : ItemTable T) (supply : Supply) :
    (t.merged hs supply).bucket = t.bucket := by rw [settings_merged]

theorem scope_merged (hs : List (Handle T)) (t : ItemTable T) (supply : Supply) :
    (t.merged hs supply).scope = t.scope := by rw [settings_merged]

theorem order_merged (hs : List (Handle T)) (t : ItemTable T) (supply : Supply) :
    (t.merged hs supply).order = t.order := by rw [settings_merged]

namespace Vacant

variable [LawfulItem T] (vacant : t.Vacant set) (candidates : Candidates set t.scope base hs)
  (hu : base ≤ u.next)

include vacant candidates hu

/-- A run of candidates never fails, and leaves their champions at each place. -/
theorem champions_each : (∃ change, (Action.each merge hs t u).result = .ok change) ∧
    (sited T t.bucket).Champions set t.scope base hs (t.merged hs u)
      (Action.each merge hs t u).supply :=
  (champions_nil vacant.reachable.wellFormed vacant.rules vacant.contexts vacant.empty hu).each
    candidates fun _ => id

theorem wellFormed_merged : (t.merged hs u).WellFormed :=
  (vacant.champions_each candidates hu).2.sound.1

theorem crowned_merged : (t.merged hs u).Crowned set hs := by
  have champions := (vacant.champions_each candidates hu).2
  have coarser := vacant.coarser
  rw [← scope_merged hs t u] at candidates
  rw [← bucket_merged hs t u, ← scope_merged hs t u] at champions coarser
  exact crowned_of_champions champions.sound.1 coarser candidates champions

/-- Runs of the same candidates leave the same up to derivation. -/
theorem twin_merged (perm : hs.Perm hs') (hw : base ≤ w.next) :
    (t.merged hs u).Twin (t.merged hs' w) := by
  have crowned := vacant.crowned_merged candidates hu
  have crowned' := (vacant.crowned_merged (candidates.perm perm) hw).perm perm.symm
  have bucket : (t.merged hs u).bucket = (t.merged hs' w).bucket := by
    rw [bucket_merged, bucket_merged]
  have scope : (t.merged hs u).scope = (t.merged hs' w).scope := by
    rw [scope_merged, scope_merged]
  rw [← scope_merged hs t u] at candidates
  exact crowned.twin crowned' bucket scope candidates

/-- Every leader wins in some order: where the candidate whose fields it has comes first. -/
theorem exists_order (hw : base ≤ w.next) {v : Handle T} (leads : (t.merged hs u).Leads v) :
    ∃ hs', hs.Perm hs' ∧ ∃ x ∈ (t.merged hs' w).resolve, Twins v.item x.item := by
  have crowned := vacant.crowned_merged candidates hu
  obtain ⟨h, among, fields, -⟩ := (crowned.champions v leads.held).candidate
  obtain ⟨before, behind, rfl⟩ := List.append_of_mem among
  have perm : (before ++ h :: behind).Perm (h :: (before ++ behind)) := List.perm_middle
  have candidates' := candidates.perm perm
  have twin := vacant.twin_merged candidates hu perm hw
  have wf' := vacant.wellFormed_merged candidates' hw
  have place := (vacant.champions_each candidates' hw).2.places (t.keyOf h.item)
  obtain ⟨x, rest, first, collides⟩ :=
    place.chain.opens h (congrArg List.head? Sited.share_cons_self)
  rw [Chain.collides, place.scope] at collides
  have held : x ∈ (t.merged (h :: (before ++ behind)) w).handles :=
    wf'.mem_handles_of_mem (first ▸ List.mem_cons_self)
  obtain ⟨y, held', yx⟩ := twin.right x held
  obtain rfl : y = v := by
    apply crowned.eq_of_collides held' leads.held
    rw [scope_merged]
    refine KeyScope.collides_trans (KeyScope.collides_of_sameFields _ yx.fields) ?_
    exact KeyScope.collides_trans collides (KeyScope.collides_of_sameFields _ fields)
  have key : (t.merged (h :: (before ++ behind)) w).keyOf x.item = t.keyOf h.item := by
    rw [keyOf, bucket_merged]
    exact KeyScope.key_eq_of_collides vacant.coarser collides
  rw [← key] at first
  exact ⟨_, perm, x, wf'.mem_resolve_of_first (twin.leads leads held yx) first, yx⟩

end Vacant

/-- Rivals under one key of which either shows like a winner have one key. -/
theorem WellFormed.underived_eq_of_winners [LawfulItem T] (wf : t.WellFormed) {v w x y : Handle T}
    (hx : x ∈ t.resolve) (hy : y ∈ t.resolve)
    (xv : Item.underived x.item = Item.underived v.item)
    (yw : Item.underived y.item = Item.underived w.item)
    (key : t.keyOf v.item = t.keyOf w.item) (rivals : Rivals v.item w.item) :
    Item.underived v.item = Item.underived w.item := by
  have symm : Std.Symm fun v w : Handle T =>
      ¬ (t.keyOf v.item = t.keyOf w.item ∧ Rivals v.item w.item) :=
    ⟨fun _ _ apart both => apart ⟨both.1.symm, both.2.symm⟩⟩
  have shown {a b : T} (same : Item.underived a = Item.underived b) :
      t.keyOf a = t.keyOf b ∧ Rivals a b :=
    ⟨KeyScope.key_eq_of_collides (Nat.le_refl _) (t.bucket.collides_of_underived_eq same),
      eq_of_underived_eq same Item.name LawfulItem.name_withDerivation,
      eq_of_underived_eq same Item.arch LawfulItem.arch_withDerivation⟩
  have one : x = y := by
    refine by_contra fun other => List.Pairwise.forall wf.pairwise_resolve hx hy other ⟨?_, ?_⟩
    · exact (shown xv).1.trans (key.trans (shown yw).1.symm)
    · exact (shown xv).2.trans (rivals.trans (shown yw).2.symm)
  exact xv.symm.trans ((congrArg (Item.underived ·.item) one).trans yw)

/-- Candidates are merged into an empty table in any order without a failure. For each of their keys
the table then has one definition, with the fields and the evaluated priority of the one of the
highest priority, and no others. Up to derivation all orders leave the same definitions and the same
sorted listings, and winners of the same names, architectures and priorities. The winners themselves
are the same up to derivation for all orders if and only if no two definitions share a lead, and
this never happens where the context is not part of the key. -/
theorem merge_order_immaterial [LawfulItem T] [OrderedItem T] (vacant : t.Vacant set)
    (candidates : Candidates set t.scope base hs) (hu : base ≤ u.next) :
    (∀ hs' w, hs.Perm hs' → base ≤ w.next →
      (∃ change, (Action.each merge hs' t w).result = .ok change) ∧
      (t.merged hs' w).Crowned set hs ∧
      ((t.merged hs u).handles.map (Item.underived ·.item)).Perm
        ((t.merged hs' w).handles.map (Item.underived ·.item)) ∧
      (∀ order, ((t.merged hs u).sortedBy order).map (Item.underived ·.item) =
        ((t.merged hs' w).sortedBy order).map (Item.underived ·.item)) ∧
      ((t.merged hs u).resolve.map (standing t.bucket)).Perm
        ((t.merged hs' w).resolve.map (standing t.bucket))) ∧
    ((∀ hs' w, hs.Perm hs' → base ≤ w.next →
      (t.merged hs u).resolve.map (Item.underived ·.item) =
        (t.merged hs' w).resolve.map (Item.underived ·.item)) ↔ (t.merged hs u).Decided) ∧
    (t.scope ≠ .nameArchContext → (t.merged hs u).Decided) := by
  have crowned := vacant.crowned_merged candidates hu
  have wf := vacant.wellFormed_merged candidates hu
  refine ⟨fun hs' w perm hw => ?each, ⟨fun agree v w hv hw key rivals => ?decided, ?agree⟩, ?never⟩
  case each =>
    have candidates' := candidates.perm perm
    have crowned' := (vacant.crowned_merged candidates' hw).perm perm.symm
    have wf' := vacant.wellFormed_merged candidates' hw
    have twin := vacant.twin_merged candidates hu perm hw
    have standings := twin.perm_standings wf wf'
    rw [bucket_merged] at standings
    exact ⟨(vacant.champions_each candidates' hw).1, crowned',
      twin.perm_handles wf wf' crowned.untwinned crowned'.untwinned,
      twin.sortedBy_eq wf wf' crowned.untwinned crowned'.untwinned, standings⟩
  case decided =>
    -- Some order lets the one win and some order the other, and both orders show the same winners.
    have shown {v : Handle T} (leads : (t.merged hs u).Leads v) :
        ∃ x ∈ (t.merged hs u).resolve, Item.underived x.item = Item.underived v.item := by
      obtain ⟨hs', perm, x, won, twins⟩ := vacant.exists_order candidates hu hu leads
      have listed := List.mem_map_of_mem (f := (Item.underived ·.item)) won
      rw [← agree hs' u perm hu, ← twins.underived_eq] at listed
      exact List.mem_map.mp listed
    obtain ⟨x, hx, xv⟩ := shown hv
    obtain ⟨y, hy, yw⟩ := shown hw
    apply crowned.eq_of_collides hv.held hw.held
    exact KeyScope.collides_of_underived_eq _ (wf.underived_eq_of_winners hx hy xv yw key rivals)
  case agree =>
    intro decided hs' w perm hw
    have twin := vacant.twin_merged candidates hu perm hw
    refine twin.resolve_eq wf (vacant.wellFormed_merged (candidates.perm perm) hw) ?_ decided
    rw [order_merged, order_merged]
  case never =>
    intro scope
    rw [← scope_merged hs t u] at scope
    exact crowned.decided scope

/-- Two definitions of a port in contexts of one priority share the lead: the one that is merged
first wins. -/
theorem winners_depend_on_merge_order :
    let set : ContextSet := ⟨⟨[("laptop", 1), ("office", 1)], by decide⟩⟩
    let t : ItemTable Resource := {
      table := .withBuckets 1, rules := .standard, bucket := .name, scope := .nameArchContext,
      contexts := some set }
    let laptop : Handle Resource := ⟨0, 1, { name := "port", value := "22", context := "laptop" }⟩
    let office : Handle Resource := ⟨2, 3, { name := "port", value := "80", context := "office" }⟩
    t.Vacant set ∧ Candidates set t.scope 4 [laptop, office] ∧
      [laptop, office].Perm [office, laptop] ∧
      (t.merged [laptop, office] ⟨4⟩).resolve.map (Item.underived ·.item) ≠
        (t.merged [office, laptop] ⟨4⟩).resolve.map (Item.underived ·.item) := by
  intro set t laptop office
  have vacant : t.Vacant set :=
    ⟨.empty _ _ _ _ _ _, rfl, rfl, by decide, by decide +kernel⟩
  have values : ∀ h ∈ [laptop, office], set.evaluateItem h.item = .ok 1 := by
    simp only [List.forall_mem_cons]
    exact ⟨set.evaluate_of_isValidName (by decide), set.evaluate_of_isValidName (by decide),
      List.forall_mem_nil _⟩
  have different_keys : ∀ g ∈ [laptop, office], ∀ h ∈ [laptop, office],
      t.scope.collides g.item h.item = true → Item.sameFields g.item h.item = true := by
    decide +kernel
  have candidates : Candidates set t.scope 4 [laptop, office] := {
    plain := by decide +kernel
    parses := fun h among => ContextSet.exists_parse_of_evaluateItem (values h among)
    apart := fun g hg h hh collides => .inl (different_keys g hg h hh collides)
    old := by decide +kernel
    one := by decide +kernel }
  have first : (t.merged [laptop, office] ⟨4⟩).resolve.map (Item.underived ·.item) =
      [{ laptop.item with priority := 1 }] := by decide +kernel
  have second : (t.merged [office, laptop] ⟨4⟩).resolve.map (Item.underived ·.item) =
      [{ office.item with priority := 1 }] := by decide +kernel
  refine ⟨vacant, candidates, .swap office laptop [], ?_⟩
  rw [first, second]
  decide

/-- A newer version that the context brings in, and a second definition of it from elsewhere, are
merged behind and before the version that they replace. -/
theorem merge_order_immaterial_of_upgrade :
    let set : ContextSet := ⟨⟨[("laptop", 1)], by decide⟩⟩
    let t : ItemTable Package := {
      table := .withBuckets 1, rules := .standard, bucket := .name, scope := .nameArch,
      contexts := some set }
    let old : Handle Package := ⟨0, 1, { name := "vim", version := "8" }⟩
    let new (cell : Cell) (source : String) : Handle Package := ⟨cell, cell + 1,
      { name := "vim", version := "9", context := "laptop", derivation := ⟨[source]⟩ }⟩
    let hs := [old, new 2 "a:1", new 4 "b:2"]
    let hs' := [new 4 "b:2", old, new 2 "a:1"]
    (∃ change, (Action.each merge hs' t ⟨6⟩).result = .ok change) ∧
      (t.merged hs' ⟨6⟩).Crowned set hs ∧
      (t.merged hs ⟨6⟩).resolve.map (Item.underived ·.item) =
        (t.merged hs' ⟨6⟩).resolve.map (Item.underived ·.item) := by
  intro set t old new hs hs'
  have vacant : t.Vacant set :=
    ⟨.empty _ _ _ _ _ _, rfl, rfl, by decide, by decide +kernel⟩
  have value_old : set.evaluateItem old.item = .ok 0 := by decide +kernel
  have value_new (cell : Cell) (source : String) :
      set.evaluateItem (new cell source).item = .ok 1 :=
    set.evaluate_of_isValidName (show Context.isValidName "laptop" = true by decide)
  have values :
      ∀ h ∈ hs, set.evaluateItem h.item = .ok (if h.item.version = "8" then 0 else 1) := by
    simp only [hs, List.forall_mem_cons]
    exact ⟨value_old, value_new 2 "a:1", value_new 4 "b:2", List.forall_mem_nil _⟩
  have candidates : Candidates set t.scope 6 hs := {
    plain := by decide +kernel
    parses := fun h among => ContextSet.exists_parse_of_evaluateItem (values h among)
    apart := fun g hg h hh _ => by
      rw [values g hg, values h hh]
      revert g h
      decide +kernel
    old := by decide +kernel
    one := by decide +kernel }
  have perm : hs.Perm hs' := by decide +kernel
  obtain ⟨all, agree, never⟩ := merge_order_immaterial vacant candidates (u := ⟨6⟩) (by decide)
  have run := all hs' ⟨6⟩ perm (by decide)
  exact ⟨run.1, run.2.1, agree.mpr (never (by decide)) hs' ⟨6⟩ perm (by decide)⟩

end HostProfile.ItemTable
