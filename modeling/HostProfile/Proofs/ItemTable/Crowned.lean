import HostProfile.Proofs.Champions
import HostProfile.Proofs.ItemTable.Twins

/-!
# Tables of champions

A table that has the champions of a list of definitions has one definition for each key, which is
one of the highest priority. But for derivations there is only one such table, whatever the order of
its buckets and chains.
-/

namespace HostProfile

variable {T : Type} [Item T] {set : ContextSet} {scope : KeyScope} {base : Cell}
  {hs hs' : List (Handle T)}

/-- The definition has the fields and the evaluated priority of one of the candidates, and none of
them with its key has a higher priority. -/
structure Champion (set : ContextSet) (scope : KeyScope) (hs : List (Handle T)) (x : Handle T) :
    Prop where
  candidate : ∃ h ∈ hs, Item.sameFields h.item x.item = true ∧
    set.evaluateItem h.item = .ok (Item.priority x.item)
  highest : ∀ h ∈ hs, scope.collides h.item x.item = true → ∀ priority,
    set.evaluateItem h.item = .ok priority → priority ≤ Item.priority x.item

theorem Champion.perm {x : Handle T} (champion : Champion set scope hs x) (perm : hs.Perm hs') :
    Champion set scope hs' x where
  candidate := by
    obtain ⟨h, among, is⟩ := champion.candidate
    exact ⟨h, perm.mem_iff.mp among, is⟩
  highest h among := champion.highest h (perm.mem_iff.mpr among)

variable [LawfulItem T]

/-- Two champions with one key are twins. -/
theorem Champion.twins {x y : Handle T} (hx : Champion set scope hs x)
    (hy : Champion set scope hs y) (candidates : Candidates set scope base hs)
    (collides : scope.collides x.item y.item = true) : Twins x.item y.item := by
  obtain ⟨g, hg, gx, value_x⟩ := hx.candidate
  obtain ⟨h, hh, hy', value_y⟩ := hy.candidate
  have gx' := KeyScope.collides_of_sameFields scope gx
  have hy'' := KeyScope.collides_of_sameFields scope hy'
  have gy := KeyScope.collides_trans gx' collides
  have hx' := KeyScope.collides_trans hy'' ((KeyScope.collides_comm ..).trans collides)
  have le := hx.highest h hh hx' _ value_y
  have ge := hy.highest g hg gy _ value_x
  have priority := Int32.le_antisymm ge le
  refine ⟨?_, priority⟩
  have gh := KeyScope.collides_trans gy ((KeyScope.collides_comm ..).trans hy'')
  rcases candidates.apart g hg h hh gh with same | ne
  · exact Item.sameFields_trans ((Item.sameFields_comm ..).trans gx)
      (Item.sameFields_trans same hy')
  · exact absurd (by rw [value_x, value_y, priority]) ne

namespace ItemTable

variable {t t' : ItemTable T} {supply : Supply}

/-- The table has one definition for each key of the candidates, which is their champion, and no
others. -/
structure Crowned (set : ContextSet) (hs : List (Handle T)) (t : ItemTable T) : Prop where
  distinct : t.handles.Pairwise fun x y => t.scope.collides x.item y.item = false
  present : ∀ h ∈ hs, ∃ x ∈ t.handles, t.scope.collides x.item h.item = true
  champions : ∀ x ∈ t.handles, Champion set t.scope hs x

/-- An empty table is ready for candidates. -/
theorem champions_nil (wf : t.WellFormed) (rules : t.rules = .standard)
    (contexts : t.contexts = some set) (empty : t.handles = []) (new : base ≤ supply.next) :
    (sited T t.bucket).Champions set t.scope base [] t supply := by
  have none_held (key : String) : (t.chainAt key).items = [] :=
    List.eq_nil_iff_forall_not_mem.mpr fun x held =>
      List.not_mem_nil (empty ▸ wf.mem_handles_of_mem held)
  have nothing {P : Handle T → Prop} (key : String) : ∀ x ∈ (t.chainAt key).items, P x := by
    rw [none_held]
    exact nofun
  have distinct (key : String) : (t.chainAt key).Distinct := by
    show (t.chainAt key).items.Pairwise _
    rw [none_held]
    exact .nil
  refine ⟨⟨wf, rfl⟩, new, fun key => ⟨contexts, wf.scope_chainAt key, ?_⟩⟩
  have ranked : (t.chainAt key).Ranked set :=
    ⟨(wf.rules_chainAt key).trans rules, distinct key, nothing key, nothing key⟩
  exact ⟨ranked, nothing key, nothing key, nofun, nofun⟩

/-- Where the places of a table have their champions, each candidate is covered at its place. -/
theorem exists_of_champions (wf : t.WellFormed)
    (champions : (sited T t.bucket).Champions set t.scope base hs t supply) {h : Handle T}
    (among : h ∈ hs) {priority : Int32} (value : set.evaluateItem h.item = .ok priority) :
    ∃ x ∈ (t.chainAt (t.keyOf h.item)).items, t.scope.collides x.item h.item = true ∧
      priority ≤ Item.priority x.item := by
  obtain ⟨x, held, collides, le⟩ := (champions.places (t.keyOf h.item)).chain.covers h
    (Sited.mem_share (S := sited T t.bucket) among) priority value
  have scope : (t.siteAt (t.keyOf h.item)).chain.scope = t.scope := wf.scope_chainAt _
  rw [Chain.collides, KeyScope.collides_withPriority_right] at collides
  rw [LawfulItem.priority_withPriority] at le
  exact ⟨x, held, scope ▸ collides, le⟩

/-- A table that has the champions at each place has them. -/
theorem crowned_of_champions (wf : t.WellFormed) (coarser : t.bucket.parts ≤ t.scope.parts)
    (candidates : Candidates set t.scope base hs)
    (champions : (sited T t.bucket).Champions set t.scope base hs t supply) :
    t.Crowned set hs := by
  have scope (key : String) := wf.scope_chainAt key
  have place (key : String) := (champions.places key).chain
  constructor
  case distinct =>
    refine wf.pairwise_handles (R := fun a b => t.scope.collides a b = false) coarser
      (fun _ _ => id) fun key => ?_
    have distinct := (place key).ranked.distinct
    rw [← scope key]
    exact distinct
  case present =>
    intro h among
    obtain ⟨priority, value⟩ := candidates.evaluates among
    obtain ⟨x, held, collides, -⟩ := exists_of_champions wf champions among value
    exact ⟨x, wf.mem_handles_of_mem held, collides⟩
  case champions =>
    intro x held
    have held := wf.mem_handles_iff.mp held
    constructor
    case candidate =>
      obtain ⟨h, shared, fields⟩ := (place (t.keyOf x.item)).origin x held
      obtain ⟨_, among, rfl⟩ := Sited.exists_of_mem_share shared
      have weighed := (place (t.keyOf x.item)).ranked.weighed x held
      exact ⟨_, among, fields, (set.evaluateItem_eq_of_sameFields fields).trans weighed⟩
    case highest =>
      intro h among collides priority value
      obtain ⟨y, held', collides', le⟩ := exists_of_champions wf champions among value
      have key : t.keyOf h.item = t.keyOf x.item := KeyScope.key_eq_of_collides coarser collides
      have both := KeyScope.collides_trans collides' collides
      rw [key] at held'
      rw [← scope (t.keyOf x.item)] at both
      rw [(place (t.keyOf x.item)).ranked.distinct.eq_of_collides held' held both] at le
      exact le

namespace Crowned

omit [LawfulItem T] in
theorem perm (crowned : t.Crowned set hs) (perm : hs.Perm hs') : t.Crowned set hs' where
  distinct := crowned.distinct
  present h among := crowned.present h (perm.mem_iff.mpr among)
  champions x held := (crowned.champions x held).perm perm

omit [LawfulItem T] in
/-- Two definitions with one key are one. -/
theorem eq_of_collides (crowned : t.Crowned set hs) {x y : Handle T} (hx : x ∈ t.handles)
    (hy : y ∈ t.handles) (collides : t.scope.collides x.item y.item = true) : x = y :=
  t.scope.eq_of_collides crowned.distinct hx hy collides

theorem untwinned (crowned : t.Crowned set hs) : t.Untwinned :=
  crowned.distinct.imp fun apart => eq_false_of_ne_true fun same =>
    absurd (apart.symm.trans (KeyScope.collides_of_sameFields t.scope same)) nofun

/-- Tables with the champions of the same candidates hold the same up to derivation. -/
theorem twin (crowned : t.Crowned set hs) (crowned' : t'.Crowned set hs)
    (bucket : t.bucket = t'.bucket) (scope : t.scope = t'.scope)
    (candidates : Candidates set t.scope base hs) : t.Twin t' := by
  have one_way {u u' : ItemTable T} (crowned : u.Crowned set hs) (crowned' : u'.Crowned set hs)
      (scope : u.scope = u'.scope) (candidates : Candidates set u.scope base hs) (x : Handle T)
      (held : x ∈ u.handles) : ∃ y ∈ u'.handles, Twins x.item y.item := by
    have champion := crowned.champions x held
    obtain ⟨h, among, fields, -⟩ := champion.candidate
    obtain ⟨y, held', collides⟩ := crowned'.present h among
    have champion' := crowned'.champions y held'
    rw [← scope] at champion' collides
    refine ⟨y, held', champion.twins champion' candidates ?_⟩
    rw [KeyScope.collides_comm]
    exact KeyScope.collides_trans collides (KeyScope.collides_of_sameFields _ fields)
  refine ⟨bucket, one_way crowned crowned' scope candidates, fun y held => ?_⟩
  obtain ⟨x, held', twins⟩ :=
    one_way crowned' crowned scope.symm (scope ▸ candidates) y held
  exact ⟨x, held', twins.symm⟩

omit [LawfulItem T] in
/-- Where the key has nothing but the name and the architecture, no two definitions can share a
lead. -/
theorem decided (crowned : t.Crowned set hs) (scope : t.scope ≠ .nameArchContext) : t.Decided := by
  intro v w hv hw _ rivals
  apply crowned.eq_of_collides hv.held hw.held
  cases is : t.scope with
  | name => simp [KeyScope.collides, rivals.1]
  | nameArch => simp [KeyScope.collides, rivals.1, rivals.2]
  | nameArchContext => exact absurd is scope

end Crowned

end ItemTable

end HostProfile
