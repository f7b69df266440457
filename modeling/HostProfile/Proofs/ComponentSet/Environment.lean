import HostProfile.Proofs.Chain.Winners
import HostProfile.Proofs.ComponentSet.Built
import HostProfile.Proofs.Places

/-!
# Variables exported and imported

The variables of a set are its winning values, each under the name of its component and resource:
names of components hold no dot, so that no two winners share a variable. The variables of built
resources can be built again. Merged into a set without components, each comes to a place where
nothing lies, whose chain takes it in without having to decide, and in any contexts it is active
there. So the variables of the set that they are merged into are the same.
-/

namespace HostProfile

/-- A chain without entries takes in a definition that has no directive. -/
theorem Chain.merge_of_nil {T : Type} [Item T] {c : Chain T} (nothing : c.items = [])
    {contexts : Option ContextSet} {h : Handle T} (plain : Item.directive h.item = .ok none)
    (value : priorityIn contexts h.item = .ok (Item.priority h.item)) (supply : Supply) :
    merge contexts h c supply = ⟨.ok .added, { c with items := [h] }, supply⟩ := by
  have absent : c.contains h = false := by rw [contains, nothing, List.any_nil]
  have free : c.items.any (c.collides h.item) = false := by rw [nothing, List.any_nil]
  have decision : c.decide h = .ok (.added, [h]) := by
    have accepts := (Accepts.appended plain free).decide_eq
    rwa [nothing, List.nil_append] at accepts
  rw [merge_eq, absent, if_neg Bool.false_ne_true, value]
  simp only [Handle.atPriority_self, ne_eq, not_true_eq_false, false_and, if_false]
  rw [settle_eq, decision]

/-- So does a place. -/
theorem Site.merge_of_nil {T : Type} [Item T] {a : Site T} {h : Handle T}
    (nothing : a.chain.items = []) (plain : Item.directive h.item = .ok none)
    (value : priorityIn a.contexts h.item = .ok (Item.priority h.item)) (supply : Supply) :
    merge h a supply =
      ⟨.ok .added, { a with chain := { a.chain with items := [h] } }, supply⟩ := by
  rw [merge, Chain.merge_of_nil nothing plain value]
  rfl

/-- Of a list in which no two variables share a name, one is all that has its name. -/
theorem Environment.filter_name {vars : List Variable}
    (distinct : vars.Pairwise fun v w => v.1 ≠ w.1) {v : Variable} (member : v ∈ vars) :
    vars.filter (·.1 == v.1) = [v] := by
  induction vars with
  | nil => exact absurd member List.not_mem_nil
  | cons w rest ih =>
      rw [List.pairwise_cons] at distinct
      rcases List.mem_cons.mp member with rfl | later
      · have own : (v.1 == v.1) = true := beq_self_eq_true v.1
        rw [List.filter_cons, if_pos own]
        refine congrArg (v :: ·) (List.filter_eq_nil_iff.mpr fun w behind same => ?_)
        exact distinct.1 w behind (eq_of_beq same).symm
      · have other : ¬ (w.1 == v.1) = true := fun same => distinct.1 v later (eq_of_beq same)
        rw [List.filter_cons, if_neg other, ih distinct.2 later]

namespace ComponentSet

open Environment

variable {s : ComponentSet} {component name : String} {h : Handle Resource} {supply : Supply}

/-! ## Winners at places -/

theorem items_siteAt_of_absent (absent : s.find? component = none) :
    (s.siteAt (component, name)).chain.items = [] := by
  change ((s.componentAt component).resources.chainAt name).items = []
  rw [componentAt_of_none absent,
    ItemTable.chainAt_of_none (find?_emptyComponent s component name)]
  rfl

theorem checkName_of_mem_siteAt (named : s.Named)
    (held : h ∈ (s.siteAt (component, name)).chain.items) :
    Component.checkName component = .ok () := by
  cases found : s.find? component with
  | some c => exact named component c found
  | none =>
      rw [items_siteAt_of_absent found] at held
      exact absurd held List.not_mem_nil

theorem resource?_eq (s : ComponentSet) (component name : String) :
    s.resource? component name = best? (s.siteAt (component, name)).chain.items := by
  rw [resource?_eq_bind, chain?_eq, ItemTable.bind_find? rfl]
  rfl

theorem resource?_eq_some_iff : s.resource? component name = some h ↔
    ∃ c, s.find? component = some c ∧
      ∃ chain, c.resources.find? name = some chain ∧ chain.active? = some h := by
  simp only [resource?, Component.resource?, ItemTable.active?, Option.bind_eq_bind,
    Option.bind_eq_some_iff]

theorem name_of_mem_siteAt (wf : s.WellFormed)
    (held : h ∈ (s.siteAt (component, name)).chain.items) : h.item.name = name := by
  have fits := wf.fits_componentAt component
  have placed := fits.wellFormed.placed_chainAt held
  rwa [ItemTable.keyOf, fits.bucket] at placed

/-- What a set shows of a component lies at the place of its name. -/
theorem mem_visible_all_iff (wf : s.WellFormed) :
    (component, h) ∈ s.visible .all ↔ h ∈ (s.siteAt (component, h.item.name)).chain.items := by
  have share := share_visible wf (component, h.item.name)
  constructor
  · intro member
    have shared : h ∈ sited.share (s.visible .all) (component, h.item.name) :=
      Sited.mem_share (S := sited) member
    rwa [share] at shared
  · intro held
    change h ∈ ((s.componentAt component).resources.chainAt h.item.name).items at held
    rw [← share] at held
    obtain ⟨⟨component', h'⟩, among, is⟩ := List.mem_map.mp held
    obtain ⟨member, at_place⟩ := List.mem_filter.mp among
    obtain rfl : h' = h := is
    obtain rfl : component' = component := congrArg Prod.fst (of_decide_eq_true at_place)
    exact member

theorem visible_active (s : ComponentSet) :
    s.visible .active = (s.visible .all).filter (Item.isActive ·.2.item) := by
  have active (t : ItemTable Resource) :
      t.visible .active = t.handles.filter (Item.isActive ·.item) := by
    rw [ItemTable.visible, ItemTable.handles, List.filter_flatMap]
    rfl
  rw [visible_all, visible, List.filter_flatMap]
  simp only [active, List.filter_map]
  rfl

/-- The pairs that have an active definition are those that have a winner. -/
theorem exists_active_iff (wf : s.WellFormed) :
    (∃ h, (component, h) ∈ s.visible .active ∧ h.item.name = name) ↔
      ∃ h, s.resource? component name = some h := by
  rw [resource?_eq]
  constructor
  · rintro ⟨h, shown, rfl⟩
    rw [visible_active] at shown
    obtain ⟨shown, active⟩ := List.mem_filter.mp shown
    exact exists_best? ((mem_visible_all_iff wf).mp shown) active
  · rintro ⟨h, wins⟩
    obtain ⟨held, active, -⟩ := best?_eq_some wins
    have named := name_of_mem_siteAt wf held
    have shown : (component, h) ∈ s.visible .all := by
      rw [mem_visible_all_iff wf, named]
      exact held
    refine ⟨h, ?_, named⟩
    rw [visible_active]
    exact List.mem_filter.mpr ⟨shown, active⟩

theorem built_of_resource? (furnished : s.Furnished)
    (wins : s.resource? component name = some h) :
    h.item.Built ∧ h.item.name = name ∧ Component.checkName component = .ok () := by
  have wf := furnished.wellFormed
  rw [resource?_eq] at wins
  obtain ⟨held, -, -⟩ := best?_eq_some wins
  exact ⟨furnished.storesOnly_built.componentAt component name h held, name_of_mem_siteAt wf held,
    checkName_of_mem_siteAt furnished.named held⟩

/-! ## Export -/

/-- The variables of a set are the values of its winners. -/
theorem mem_environment_iff (wf : s.WellFormed) {v : Variable} :
    v ∈ s.environment ↔ ∃ component name h, s.resource? component name = some h ∧
      v = (variableName component name, h.item.value) := by
  rw [environment_eq, List.mem_mergeSort, List.mem_flatMap]
  constructor
  · rintro ⟨c, member, inside⟩
    obtain ⟨chain, held, h, active, rfl⟩ := Component.mem_environment.mp inside
    have found : s.find? c.name = some c := wf.sound.find?_eq_some_iff.mpr ⟨member, rfl⟩
    have chains := (wf.stored found).fits.wellFormed
    refine ⟨c.name, chain.key, h, ?_, rfl⟩
    exact resource?_eq_some_iff.mpr ⟨c, found, chain, chains.find?_key held, active⟩
  · rintro ⟨component, name, h, wins, rfl⟩
    obtain ⟨c, found, chain, held, active⟩ := resource?_eq_some_iff.mp wins
    have chains := (wf.stored found).fits.wellFormed.sound
    refine ⟨c, (wf.sound.find?_eq_some_iff.mp found).1, Component.mem_environment.mpr ?_⟩
    refine ⟨chain, (chains.find?_eq_some_iff.mp held).1, h, active, ?_⟩
    rw [name_of_find? found, ItemTable.key_of_find? held]

/-- Neither one component nor two have two variables of one name. -/
theorem pairwise_variables (wf : s.WellFormed) (named : s.Named) :
    (s.table.slots.flatMap Component.environment).Pairwise fun v w => v.1 ≠ w.1 := by
  have proper (c : Component) (member : c ∈ s.table.slots) :
      Component.checkName c.name = .ok () :=
    named c.name c (wf.sound.find?_eq_some_iff.mpr ⟨member, rfl⟩)
  rw [List.pairwise_flatMap]
  constructor
  · intro c member
    have found : s.find? c.name = some c := wf.sound.find?_eq_some_iff.mpr ⟨member, rfl⟩
    have keys : c.resources.table.slots.Pairwise fun a b => a.key ≠ b.key :=
      List.pairwise_map.mp (wf.stored found).fits.wellFormed.sound.nodup_keys
    refine List.pairwise_filterMap.mpr (keys.imp fun {a b} apart v hv w hw same => ?_)
    obtain ⟨x, -, rfl⟩ := Option.map_eq_some_iff.mp hv
    obtain ⟨y, -, rfl⟩ := Option.map_eq_some_iff.mp hw
    exact apart (variableName_inj (proper c member) (proper c member) same).2
  · have names : s.table.slots.Pairwise fun c c' => c.name ≠ c'.name :=
      List.pairwise_map.mp wf.sound.nodup_keys
    refine names.imp_of_mem fun {c c'} hc hc' apart v hv w hw same => ?_
    obtain ⟨a, -, x, -, rfl⟩ := Component.mem_environment.mp hv
    obtain ⟨b, -, y, -, rfl⟩ := Component.mem_environment.mp hw
    exact apart (variableName_inj (proper c hc) (proper c' hc') same).1

theorem distinct_environment (wf : s.WellFormed) (named : s.Named) :
    s.environment.Pairwise fun v w => v.1 ≠ w.1 :=
  (List.mergeSort_perm _ _).symm.pairwise (pairwise_variables wf named) fun ne => ne.symm

/-- The variables come in the order of their names. -/
theorem pairwise_environment (wf : s.WellFormed) (named : s.Named) :
    s.environment.Pairwise fun v w => compareOn Prod.fst v w = .lt := by
  have sorted : s.environment.Pairwise fun v w => (compareOn Prod.fst v w).isLE = true :=
    pairwise_mergeSort (compareOn Prod.fst) _
  refine ((distinct_environment wf named).and sorted).imp fun {v w} ⟨ne, le⟩ => ?_
  cases order : compareOn Prod.fst v w with
  | lt => rfl
  | eq => exact absurd (Std.LawfulEqOrd.eq_of_compare order) ne
  | gt =>
      rw [order] at le
      cases le

/-! ## Import -/

end ComponentSet

namespace Environment

/-- The variable is one of a resource that can be built, in a component of proper name. -/
structure Names (v : Variable) (component name : String) : Prop where
  valid : Component.checkName component = .ok ()
  called : v.1 = variableName component name
  builds : ∀ d, Resource.build { name, value := v.2, derivation := d } =
    .ok { name, value := v.2, derivation := d }

/-- What is merged for a variable: a resource that has nothing but a name, a value and the
derivation of the import. -/
def imported (derivation : SharedDerivation) (name value : String) (cell : Cell) :
    Handle Resource :=
  ⟨cell, derivation.cell, { name, value, derivation := derivation.derivation }⟩

/-- Without a context a resource has its own priority in any contexts. -/
theorem priorityIn_imported (contexts : Option ContextSet) (derivation : SharedDerivation)
    (name value : String) (cell : Cell) :
    priorityIn contexts (imported derivation name value cell).item = .ok 0 := by
  cases contexts with
  | none => rfl
  | some set =>
      have everywhere : Context.Expr.parse "" = .ok .always :=
        Context.Expr.parse_of_no_tokens (.start [])
      rw [priorityIn_some, ContextSet.evaluateItem]
      change set.evaluate "" = _
      rw [ContextSet.evaluate, everywhere]
      rfl

variable {v : Variable} {component name : String}

theorem Names.define_eq (names : Names v component name) (d : Derivation) :
    define v d = .ok (component, { name, value := v.2, derivation := d }) := by
  have parts : split? v.1 = some (component, name) := by
    rw [names.called]
    exact split?_variableName names.valid name
  rw [define, parts]
  dsimp only
  rw [names.builds]
  rfl

/-- A variable names one resource. -/
theorem Names.inj {component' name' : String} (names : Names v component name)
    (names' : Names v component' name') : component' = component ∧ name' = name :=
  variableName_inj names'.valid names.valid (names'.called.symm.trans names.called)

end Environment

namespace ComponentSet

open Environment

variable {s : ComponentSet} {component name : String} {v : Variable} {vars : List Variable}
  (derivation : SharedDerivation)

/-- The variables of a set of built resources can be built again. -/
theorem names_of_mem_environment (furnished : s.Furnished) (member : v ∈ s.environment) :
    ∃ component name, Names v component name := by
  obtain ⟨component, name, h, wins, rfl⟩ := (mem_environment_iff furnished.wellFormed).mp member
  obtain ⟨built, rfl, valid⟩ := built_of_resource? furnished wins
  exact ⟨component, h.item.name, valid, rfl, built.build_plain⟩

theorem mergeVariable_eq (names : Names v component name) (s : ComponentSet) (supply : Supply) :
    mergeVariable derivation v s supply =
      mergeInto (component, imported derivation name v.2 supply.next) s supply.take.2 := by
  rw [mergeVariable, names.define_eq]
  exact mergeResource_of_ok names.valid

/-- Where nothing lies at the place of a variable, its resource is put there. -/
theorem mergeVariable_of_free (wf : s.WellFormed) (names : Names v component name)
    (free : (s.siteAt (component, name)).chain.items = []) (supply : Supply) :
    let after := mergeVariable derivation v s supply
    after.result = .ok .added ∧ after.state.WellFormed ∧
      (after.state.siteAt (component, name)).chain.items =
        [imported derivation name v.2 supply.next] ∧
      ∀ place, place ≠ (component, name) → after.state.siteAt place = s.siteAt place := by
  intro after
  have merged : after =
      sited.merge (component, imported derivation name v.2 supply.next) s supply.take.2 :=
    mergeVariable_eq derivation names s supply
  have taken := Site.merge_of_nil (h := imported derivation name v.2 supply.next) free rfl
    (priorityIn_imported _ derivation name v.2 supply.next) supply.take.2
  obtain ⟨result, -, state⟩ := sited.here wf
    (component, imported derivation name v.2 supply.next) supply.take.2
  rw [merged]
  refine ⟨result.trans (congrArg Outcome.result taken), sited.keeps wf _ _, ?_,
    fun place other => sited.elsewhere wf _ _ other⟩
  exact congrArg (·.chain.items) (state.trans (congrArg Outcome.state taken))

/-- A set without components is in order and finds nothing, whatever its buckets. -/
theorem of_size_eq_zero {e : ComponentSet} (empty : e.size = 0) :
    e.WellFormed ∧ ∀ name, e.find? name = none := by
  have none_stored : e.table.slots = [] :=
    List.length_eq_zero_iff.mp ((KeyedTable.size_eq_length_slots e.table).symm.trans empty)
  have vacant {i : Nat} {c : Component} : e.table.slotAt i ≠ some c := by
    intro held
    have member := KeyedTable.mem_slots.mpr ⟨i, held⟩
    rw [none_stored] at member
    exact absurd member List.not_mem_nil
  have sound : e.table.Sound := .of_empty (fun held => absurd held vacant)
    (fun held => absurd held vacant) e.table.size_pos (Option.eq_none_iff_forall_ne_some.mpr
      fun _ => vacant)
  have absent (name : String) : e.find? name = none := sound.size_eq_zero_iff.mp empty name
  exact ⟨⟨sound, fun found => absurd ((absent _).symm.trans found) nofun⟩, absent⟩

/-- What an import into a set without components has come to: at the place of each variable lies
its resource, and nothing lies anywhere else. -/
structure Imported (vars : List Variable) (derivation : SharedDerivation) (s : ComponentSet) :
    Prop where
  wellFormed : s.WellFormed
  named : s.Named
  names : ∀ v ∈ vars, ∃ component name, Names v component name
  taken : ∀ v ∈ vars, ∀ component name, Names v component name → ∃ cell,
    (s.siteAt (component, name)).chain.items = [imported derivation name v.2 cell]
  vacant : ∀ component name, (∀ v ∈ vars, v.1 ≠ variableName component name) →
    (s.siteAt (component, name)).chain.items = []

namespace Imported

variable {derivation : SharedDerivation}

theorem of_size_eq_zero (derivation : SharedDerivation) {e : ComponentSet} (empty : e.size = 0) :
    Imported [] derivation e := by
  obtain ⟨wf, absent⟩ := ComponentSet.of_size_eq_zero empty
  exact
    { wellFormed := wf
      named := fun k c found => absurd ((absent k).symm.trans found) nofun
      names := fun _ member => absurd member List.not_mem_nil
      taken := fun _ member => absurd member List.not_mem_nil
      vacant := fun component _ _ => items_siteAt_of_absent (absent component) }

/-- A variable of another name than those before it is taken in. -/
theorem mergeVariable (import_of : Imported vars derivation s) (own : Names v component name)
    (fresh : ∀ w ∈ vars, w.1 ≠ v.1) (supply : Supply) :
    let after := ComponentSet.mergeVariable derivation v s supply
    after.result = .ok .added ∧ Imported (vars ++ [v]) derivation after.state := by
  intro after
  have apart (w : Variable) (member : w ∈ vars) : w.1 ≠ variableName component name :=
    own.called ▸ fresh w member
  obtain ⟨result, wf, here, elsewhere⟩ := mergeVariable_of_free derivation import_of.wellFormed own
    (import_of.vacant component name apart) supply
  have named : after.state.Named := by
    change (ComponentSet.mergeVariable derivation v s supply).state.Named
    rw [ComponentSet.mergeVariable, own.define_eq]
    exact import_of.named.mergeResource import_of.wellFormed _ _ _
  refine ⟨result, wf, named, fun w member => ?_, fun w member k n names => ?_, fun k n absent => ?_⟩
  · rcases List.mem_append.mp member with before | last
    · exact import_of.names w before
    · obtain rfl := List.mem_singleton.mp last
      exact ⟨component, name, own⟩
  · rcases List.mem_append.mp member with before | last
    · have other : (k, n) ≠ (component, name) := by
        rintro ⟨⟩
        exact apart w before names.called
      rw [elsewhere _ other]
      exact import_of.taken w before k n names
    · obtain rfl := List.mem_singleton.mp last
      obtain ⟨rfl, rfl⟩ := own.inj names
      exact ⟨supply.next, here⟩
  · have other : (k, n) ≠ (component, name) := by
      rintro ⟨⟩
      exact absent v (List.mem_append_right _ (List.mem_singleton_self v)) own.called
    rw [elsewhere _ other]
    exact import_of.vacant k n fun w before => absent w (List.mem_append_left _ before)

/-- So are all variables, when no two have the same name. -/
theorem mergeEnvironment {done : List Variable} (import_of : Imported done derivation s)
    (names : ∀ v ∈ vars, ∃ component name, Names v component name)
    (distinct : (done ++ vars).Pairwise fun v w => v.1 ≠ w.1) (supply : Supply) :
    let after := ComponentSet.mergeEnvironment vars derivation s supply
    after.result = .ok (if vars.isEmpty then .unchanged else .modified) ∧
      Imported (done ++ vars) derivation after.state := by
  induction vars generalizing done s supply with
  | nil => exact ⟨rfl, (List.append_nil done).symm ▸ import_of⟩
  | cons v rest ih =>
      obtain ⟨component, name, own⟩ := names v List.mem_cons_self
      have fresh (w : Variable) (member : w ∈ done) : w.1 ≠ v.1 :=
        (List.pairwise_append.mp distinct).2.2 w member v List.mem_cons_self
      obtain ⟨result, first⟩ := import_of.mergeVariable own fresh supply
      rw [List.append_cons] at distinct ⊢
      obtain ⟨results, others⟩ := ih first (fun w later => names w (List.mem_cons_of_mem v later))
        distinct (ComponentSet.mergeVariable derivation v s supply).supply
      intro after
      have run : after = (ComponentSet.mergeEnvironment rest derivation
          (ComponentSet.mergeVariable derivation v s supply).state
          (ComponentSet.mergeVariable derivation v s supply).supply).map
            Change.added.aggregate := by
        change Action.each _ (v :: rest) s supply = _
        rw [Action.each_cons, Outcome.andThen_of_ok result]
        rfl
      rw [run, Outcome.result_map, results]
      exact ⟨rfl, others⟩

variable (import_of : Imported vars derivation s)

include import_of

theorem of_mem_siteAt (held : h ∈ (s.siteAt (component, name)).chain.items) :
    ∃ v ∈ vars, v.1 = variableName component name ∧
      ∃ cell, h = imported derivation name v.2 cell := by
  have valid := checkName_of_mem_siteAt import_of.named held
  by_cases absent : ∀ v ∈ vars, v.1 ≠ variableName component name
  · rw [import_of.vacant component name absent] at held
    exact absurd held List.not_mem_nil
  · push Not at absent
    obtain ⟨v, member, called⟩ := absent
    obtain ⟨k, n, own⟩ := import_of.names v member
    obtain ⟨rfl, rfl⟩ := variableName_inj own.valid valid (own.called.symm.trans called)
    obtain ⟨cell, items⟩ := import_of.taken v member k n own
    rw [items] at held
    exact ⟨v, member, called, cell, List.mem_singleton.mp held⟩

theorem mem_environment_iff {v : Variable} : v ∈ s.environment ↔ v ∈ vars := by
  rw [ComponentSet.mem_environment_iff import_of.wellFormed]
  constructor
  · rintro ⟨component, name, h, wins, rfl⟩
    rw [resource?_eq] at wins
    obtain ⟨v, member, called, cell, rfl⟩ := import_of.of_mem_siteAt (best?_eq_some wins).1
    exact called ▸ member
  · intro member
    obtain ⟨component, name, own⟩ := import_of.names v member
    obtain ⟨cell, items⟩ := import_of.taken v member component name own
    refine ⟨component, name, imported derivation name v.2 cell, ?_, Prod.ext own.called rfl⟩
    rw [resource?_eq, items]
    rfl

theorem environment_eq (sorted : vars.Pairwise fun v w => compareOn Prod.fst v w = .lt) :
    s.environment = vars :=
  eq_of_strictly_sorted (pairwise_environment import_of.wellFormed import_of.named) sorted
    fun _ => import_of.mem_environment_iff

theorem derivation_of_mem_visible {entry : String × Handle Resource}
    (member : entry ∈ s.visible .all) :
    entry.2.origin = derivation.cell ∧ entry.2.item.derivation = derivation.derivation := by
  obtain ⟨component, h⟩ := entry
  have held := (mem_visible_all_iff import_of.wellFormed).mp member
  obtain ⟨v, -, -, cell, is⟩ := import_of.of_mem_siteAt held
  rw [is]
  exact ⟨rfl, rfl⟩

end Imported

/-- The variables of a set of built resources are the values of its winners, one for each component
and resource name with an active definition; and imported into a set without components they are
all taken in, with the derivation of the import, and are its variables then. -/
theorem environment_exports_and_imports (furnished : s.Furnished) :
    (∀ component name,
      (∃ h, (component, h) ∈ s.visible .active ∧ h.item.name = name) ↔
        ∃ h, s.resource? component name = some h) ∧
    (∀ component name h, s.resource? component name = some h →
      s.environment.filter (·.1 == variableName component name) =
        [(variableName component name, h.item.value)]) ∧
    (∀ v ∈ s.environment, ∃ component name h, s.resource? component name = some h ∧
      v = (variableName component name, h.item.value)) ∧
    (∀ component name h component' name' h', s.resource? component name = some h →
      s.resource? component' name' = some h' →
      variableName component name = variableName component' name' →
      component = component' ∧ name = name') ∧
    ∀ (e : ComponentSet) (derivation : SharedDerivation) (supply : Supply), e.size = 0 →
      let after := mergeEnvironment s.environment derivation e supply
      after.result = .ok (if s.environment.isEmpty then .unchanged else .modified) ∧
      after.state.environment = s.environment ∧
      ∀ entry ∈ after.state.visible .all, entry.2.origin = derivation.cell ∧
        entry.2.item.derivation = derivation.derivation := by
  have wf := furnished.wellFormed
  have sorted := pairwise_environment wf furnished.named
  have distinct := distinct_environment wf furnished.named
  refine ⟨fun _ _ => exists_active_iff wf, fun component name h wins => ?_,
    fun v member => (mem_environment_iff wf).mp member, fun c n h c' n' h' wins wins' same => ?_,
    fun e derivation supply empty => ?_⟩
  · exact filter_name distinct ((mem_environment_iff wf).mpr ⟨component, name, h, wins, rfl⟩)
  · exact variableName_inj (built_of_resource? furnished wins).2.2
      (built_of_resource? furnished wins').2.2 same
  · obtain ⟨result, import_of⟩ := (Imported.of_size_eq_zero derivation empty).mergeEnvironment
      (fun v => names_of_mem_environment furnished) distinct supply
    exact ⟨result, import_of.environment_eq sorted,
      fun entry => import_of.derivation_of_mem_visible⟩

theorem environment_exports_and_imports_search :
    let s := (mergeResource "net" ⟨0, 1, { name := "dns.search", value := "lan" }⟩
      { table := .withBuckets 1 } ⟨2⟩).state
    let after := mergeEnvironment s.environment ⟨7, ⟨["env"]⟩⟩
      { table := .withBuckets 1, scope := .name } ⟨8⟩
    s.Furnished ∧ after.result = .ok .modified ∧
      after.state.environment = [("net.dns.search", "lan")] ∧
      ∀ entry ∈ after.state.visible .all, entry.2.origin = 7 := by
  intro s after
  have made : Resource.build { name := "dns.search", value := "lan" } =
      .ok { name := "dns.search", value := "lan" } :=
    Resource.build_eq_ok_iff.mpr ⟨by decide, by decide, by decide, by decide, .always,
      Context.Expr.parse_of_no_tokens (.start [])⟩
  have furnished : s.Furnished := .mergeResource "net" ⟨2⟩ (.of_build made) (.empty ..)
  have exported : s.environment = [("net.dns.search", "lan")] := by decide +kernel
  obtain ⟨result, same, carried⟩ := (environment_exports_and_imports furnished).2.2.2.2
    { table := .withBuckets 1, scope := .name } ⟨7, ⟨["env"]⟩⟩ ⟨8⟩ (by decide +kernel)
  refine ⟨furnished, ?_, same.trans exported, fun entry member => (carried entry member).1⟩
  rw [result, exported]
  rfl

end ComponentSet

end HostProfile
