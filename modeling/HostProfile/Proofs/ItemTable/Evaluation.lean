import HostProfile.Proofs.ItemTable.Reachable
import HostProfile.Proofs.Sweep

/-!
# Evaluating a table again

An evaluation is a pass over the definitions of a table, chain by chain. It fails at the first
definition whose context is no expression, in whatever contexts, and keeps what it has done by
then. Only when it reaches the end does the table adopt the contexts.
-/

namespace HostProfile

variable {T : Type} [Item T] {set : ContextSet} {e : MergeError}

/-- An evaluation in any contexts fails at this definition, with this error. -/
def Handle.Malformed (e : MergeError) (h : Handle T) : Prop :=
  ∃ cause, Context.Expr.parse (Item.context h.item) = .error cause ∧ e = .item cause

namespace ContextSet

/-- Whether a definition can be evaluated does not depend on the contexts. -/
theorem evaluateItem_eq (set : ContextSet) (item : T) :
    set.evaluateItem item =
      (Context.Expr.parse (Item.context item)).map (Context.Expr.evaluate set) := by
  unfold evaluateItem evaluate
  cases Context.Expr.parse (Item.context item) <;> rfl

theorem evaluateItem_of_parse (set : ContextSet) {item : T} {expr : Context.Expr}
    (parsed : Context.Expr.parse (Item.context item) = .ok expr) :
    set.evaluateItem item = .ok (expr.evaluate set) := by
  rw [evaluateItem_eq, parsed]
  rfl

theorem evaluateItem_eq_error_iff {item : T} {cause : ItemError} :
    set.evaluateItem item = .error cause ↔
      Context.Expr.parse (Item.context item) = .error cause := by
  rw [evaluateItem_eq]
  cases Context.Expr.parse (Item.context item) <;> simp [Except.map]

theorem exists_parse_of_evaluateItem {item : T} {priority : Int32}
    (value : set.evaluateItem item = .ok priority) :
    ∃ expr, Context.Expr.parse (Item.context item) = .ok expr := by
  rw [evaluateItem_eq] at value
  cases parsed : Context.Expr.parse (Item.context item) with
  | error e =>
      rw [parsed] at value
      exact absurd value nofun
  | ok expr => exact ⟨expr, rfl⟩

end ContextSet

/-- An item with a context that is an expression has a priority in any contexts. -/
theorem exists_priorityIn_of_parses (contexts : Option ContextSet) {item : T}
    (parses : contexts.isSome → ∃ expr, Context.Expr.parse (Item.context item) = .ok expr) :
    ∃ priority, priorityIn contexts item = .ok priority := by
  cases contexts with
  | none => exact ⟨Item.priority item, rfl⟩
  | some set =>
      obtain ⟨expr, parsed⟩ := parses rfl
      exact ⟨expr.evaluate set, set.evaluateItem_of_parse parsed⟩

namespace Handle

/-- The definition after an evaluation that failed at it. -/
def Halted (e : MergeError) (x x' : Handle T) : Prop := x' = x ∧ x.Malformed e

variable {x x' : Handle T}

theorem Evaluated.priority_eq [LawfulItem T] (evaluated : x.Evaluated set x') :
    set.evaluateItem x.item = .ok (Item.priority x'.item) := by
  obtain ⟨priority, supply, value, rfl⟩ := evaluated
  rw [value, item_atPriority, LawfulItem.priority_withPriority]

theorem Evaluated.not_malformed (evaluated : x.Evaluated set x') : ¬ x.Malformed e := by
  rintro ⟨cause, malformed, -⟩
  obtain ⟨priority, supply, value, -⟩ := evaluated
  rw [ContextSet.evaluateItem_eq_error_iff.mpr malformed] at value
  exact absurd value nofun

/-- A definition that has its priority in the contexts stays in its cell. -/
theorem Evaluated.eq_self (evaluated : x.Evaluated set x')
    (weighed : set.evaluateItem x.item = .ok (Item.priority x.item)) : x' = x := by
  obtain ⟨priority, supply, value, rfl⟩ := evaluated
  obtain rfl := Except.ok.inj (value.symm.trans weighed)
  rw [atPriority_self]

/-- When an evaluation stopped at a malformed definition, those before it have their priority in the
contexts, and it and those behind it have the priorities that they had. -/
theorem priorities_of_stopped [LawfulItem T] {done rest after : List (Handle T)} {h : Handle T}
    {priority : Int32} {cause : MergeError}
    (weighed : ∀ x ∈ done, set.evaluateItem x.item = .ok priority)
    (malformed : h.Malformed cause)
    (stopped : Stopped (Evaluated set) (Halted e) (done ++ h :: rest) after) :
    after.map (Item.priority ·.item) =
      done.map (fun _ => priority) ++ (h :: rest).map (Item.priority ·.item) := by
  have passes (x : Handle T) (member : x ∈ done) (x' : Handle T) : ¬ Halted e x x' := by
    rintro ⟨-, cause, refused, -⟩
    have value := weighed x member
    rw [ContextSet.evaluateItem_eq_error_iff.mpr refused] at value
    exact absurd value nofun
  obtain ⟨done', h', rfl, related, rfl, -⟩ :=
    Stopped.of_append passes (fun _ evaluated => evaluated.not_malformed malformed) stopped
  have evaluated : done'.map (Item.priority ·.item) = done.map fun _ => priority := by
    clear passes stopped
    induction related with
    | nil => rfl
    | cons first _ ih =>
        rw [List.forall_mem_cons] at weighed
        rw [List.map_cons, List.map_cons, ih weighed.2]
        exact congrArg (· :: _) (Except.ok.inj (first.priority_eq.symm.trans weighed.1))
  rw [List.map_append, evaluated]

end Handle

/-- An evaluation fails exactly where there is a malformed definition to fail at. -/
theorem Evaluates.ok_iff {σ : Type} {finished : σ → σ → Prop} {halted : MergeError → σ → σ → Prop}
    {count : σ → σ → Nat} {s : σ} {o : Outcome σ Nat} {handles : σ → List (Handle T)}
    (evaluates : Evaluates finished halted count s o)
    (finishes : ∀ s', finished s s' → List.Forall₂ (Handle.Evaluated set) (handles s) (handles s'))
    (halts : ∀ e s', halted e s s' →
      Stopped (Handle.Evaluated set) (Handle.Halted e) (handles s) (handles s')) :
    (∃ n, o.result = .ok n) ↔ ∀ h ∈ handles s, ∀ e, ¬ h.Malformed e := by
  rcases evaluates with ⟨n, result, reached, -⟩ | ⟨e, result, reached⟩
  · refine iff_of_true ⟨n, result⟩ fun h member e => ?_
    obtain ⟨h', -, evaluated⟩ := Chain.exists_of_forall₂ (finishes _ reached) member
    exact evaluated.not_malformed
  · obtain ⟨h, member, h', -, malformed⟩ := (halts e _ reached).exists_halted
    refine iff_of_false ?_ fun sound => sound h member e malformed
    rintro ⟨n, ok⟩
    exact absurd (result.symm.trans ok) nofun

namespace Chain

/-- The chain after an evaluation that failed at one of its definitions. -/
def Halted (set : ContextSet) (e : MergeError) (c c' : Chain T) : Prop :=
  ∃ items, c' = { c with items } ∧
    Stopped (Handle.Evaluated set) (Handle.Halted e) c.items items

variable [LawfulItem T]

theorem evaluates_reevaluateItems (set : ContextSet) (items : List (Handle T)) (supply : Supply) :
    Evaluates (List.Forall₂ (Handle.Evaluated set))
      (fun e => Stopped (Handle.Evaluated set) (Handle.Halted e)) changes items
      (reevaluateItems set items supply) := by
  fun_induction reevaluateItems set items supply with
  | case1 => exact .inl ⟨0, rfl, .nil, rfl⟩
  | case2 h rest supply cause malformed =>
      refine .inr ⟨.item cause, rfl, Stopped.head ⟨rfl, cause, ?_, rfl⟩⟩
      exact ContextSet.evaluateItem_eq_error_iff.mp malformed
  | case3 h rest supply value ih =>
      have evaluated : h.Evaluated set h := ⟨_, supply, value, by rw [Handle.atPriority_self]⟩
      rcases ih with ⟨n, result, related, total⟩ | ⟨e, result, stopped⟩
      · refine .inl ⟨n, result, .cons evaluated related, ?_⟩
        rw [total, Outcome.state_mapState, changes_cons, if_pos rfl, Nat.zero_add]
      · exact .inr ⟨e, result, stopped.cons evaluated⟩
  | case4 h rest supply priority value changed cell left taken ih =>
      obtain ⟨rfl, -⟩ := Prod.ext_iff.mp taken
      have evaluated : h.Evaluated set (h.withPriority priority supply.next) :=
        ⟨priority, supply, value, by rw [Handle.atPriority_of_ne changed]⟩
      rcases ih with ⟨n, result, related, total⟩ | ⟨e, result, stopped⟩
      · refine .inl ⟨1 + n, congrArg (Except.map (1 + ·)) result, .cons evaluated related, ?_⟩
        rw [total, Outcome.state_mapState, Outcome.state_map, changes_cons,
          if_neg (by simpa using changed)]
      · exact .inr ⟨e, congrArg (Except.map (1 + ·)) result, stopped.cons evaluated⟩

/-- An evaluation of a chain is a pass over its definitions. -/
theorem evaluates_reevaluate (set : ContextSet) (c : Chain T) (supply : Supply) :
    Evaluates (ItemTable.Reweighed (Handle.Evaluated set)) (Halted set)
      (fun c c' => changes c.items c'.items) c (reevaluate set c supply) := by
  obtain ⟨n, result, related, total⟩ | ⟨e, result, stopped⟩ :=
    evaluates_reevaluateItems set c.items supply
  · exact .inl ⟨n, result, ⟨_, rfl, related⟩, total⟩
  · exact .inr ⟨e, result, _, rfl, stopped⟩

end Chain

namespace ItemTable

/-- The table with all definitions evaluated in the contexts, which it has adopted: no chain has
another key, place or order of definitions than before. -/
structure Adopted (set : ContextSet) (t t' : ItemTable T) : Prop where
  settings : t' = { t with table := t'.table, contexts := some set }
  keys : KeyedTable.SameKeys t.table t'.table
  chains : List.Forall₂ (Reweighed (Handle.Evaluated set)) t.table.slots t'.table.slots

/-- The table after an evaluation that failed at one of the definitions: those before it are
evaluated in the contexts, and it and those behind it are as they were, in the order of buckets and
chains. The table has its own contexts still. -/
structure Halted (set : ContextSet) (e : MergeError) (t t' : ItemTable T) : Prop where
  settings : t' = { t with table := t'.table }
  keys : KeyedTable.SameKeys t.table t'.table
  chains : Stopped (Reweighed (Handle.Evaluated set)) (Chain.Halted set e) t.table.slots
    t'.table.slots

variable {t t' : ItemTable T}

omit [Item T] in
theorem forall₂_of_reweighed {R : Handle T → Handle T → Prop} {c c' : Chain T}
    (reweighed : Reweighed R c c') : List.Forall₂ R c.items c'.items := by
  obtain ⟨items, rfl, related⟩ := reweighed
  exact related

theorem Adopted.handles (adopted : t.Adopted set t') :
    List.Forall₂ (Handle.Evaluated set) t.handles t'.handles :=
  List.rel_flatMap adopted.chains fun _ _ => forall₂_of_reweighed

theorem Halted.handles (halted : t.Halted set e t') :
    Stopped (Handle.Evaluated set) (Handle.Halted e) t.handles t'.handles := by
  refine halted.chains.flatMap (fun _ _ => forall₂_of_reweighed) ?_
  rintro c c' ⟨items, rfl, stopped⟩
  exact stopped

/-- An evaluation of a table is a pass over its chains, and the contexts are adopted at the end. -/
theorem evaluates_reevaluate [LawfulItem T] (set : ContextSet) (t : ItemTable T)
    (supply : Supply) :
    Evaluates (Adopted set) (Halted set) (fun t t' => changes t.handles t'.handles) t
      (reevaluate set t supply) := by
  have keys : KeyedTable.SameKeys t.table
      (KeyedTable.eachSlot (Chain.reevaluate set) t.table supply).state :=
    KeyedTable.sameKeys_eachSlot (fun _ _ => rfl) t.table supply
  have pass := KeyedTable.evaluates_eachSlot (Chain.evaluates_reevaluate set)
    (fun _ _ reweighed => (forall₂_of_reweighed reweighed).length_eq) t.table supply
  unfold reevaluate
  rcases pass with ⟨n, result, related, total⟩ | ⟨e, result, stopped⟩
  · rw [Outcome.andThen_of_ok (by exact result)]
    exact .inl ⟨n, rfl, ⟨rfl, keys, related⟩, total⟩
  · rw [Outcome.andThen_of_error (by exact result)]
    exact .inr ⟨e, rfl, rfl, keys, stopped⟩

theorem reevaluate_ok_iff [LawfulItem T] (set : ContextSet) (t : ItemTable T) (supply : Supply) :
    (∃ n, (reevaluate set t supply).result = .ok n) ↔ ∀ h ∈ t.handles, ∀ e, ¬ h.Malformed e :=
  (evaluates_reevaluate set t supply).ok_iff (fun _ => Adopted.handles) fun _ _ => Halted.handles

end ItemTable

end HostProfile
