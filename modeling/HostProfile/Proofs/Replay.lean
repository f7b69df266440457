import HostProfile.Proofs.Outcome

/-!
# Bulk merges as runs of single ones

A bulk merge does many merges and stops at the first that fails. Seen from outside it is told by
the merges that it does: `singly` does them one at a time and keeps the state from before the one
that fails. Two bulk merges are alike when their merges are alike, one by one.
-/

namespace HostProfile

variable {σ τ υ α β γ : Type}

/-! ## Outcomes that are alike -/

/-- Both outcomes give the same answer and take the same cells, and their states are related. -/
structure Outcome.Alike (R : σ → τ → Prop) (o : Outcome σ α) (o' : Outcome τ α) : Prop where
  result : o.result = o'.result
  supply : o.supply = o'.supply
  state : R o.state o'.state

namespace Outcome.Alike

variable {R : σ → τ → Prop} {o : Outcome σ α} {o' : Outcome τ α}

theorem eq {o o' : Outcome σ α} (alike : Alike (fun s s' => s = s') o o') : o = o' := by
  obtain ⟨_, _, _⟩ := o
  obtain ⟨_, _, _⟩ := o'
  obtain ⟨rfl, rfl, rfl⟩ := alike
  rfl

theorem trans {S : τ → υ → Prop} {Q : σ → υ → Prop} {o'' : Outcome υ α} (first : Alike R o o')
    (second : Alike S o' o'') (compose : ∀ {s t u}, R s t → S t u → Q s u) : Alike Q o o'' :=
  ⟨first.result.trans second.result, first.supply.trans second.supply,
    compose first.state second.state⟩

theorem map (alike : Alike R o o') (f : α → β) : Alike R (o.map f) (o'.map f) :=
  ⟨congrArg (Except.map f) alike.result, alike.supply, alike.state⟩

/-- What follows alike outcomes and is alike itself leads to alike outcomes. -/
theorem andThen {next : α → Action σ β} {next' : α → Action τ β} (alike : Alike R o o')
    (follow : ∀ a s t supply, R s t → Alike R (next a s supply) (next' a t supply)) :
    Alike R (o.andThen next) (o'.andThen next') := by
  obtain ⟨result, supply, state⟩ := alike
  unfold Outcome.andThen
  rw [result, supply]
  split
  · exact follow _ _ _ _ state
  · exact ⟨rfl, rfl, state⟩

end Outcome.Alike

/-! ## Answers together -/

namespace Outcome

theorem map_map (o : Outcome σ α) (f : α → β) (g : β → γ) :
    (o.map f).map g = o.map fun a => g (f a) := by
  obtain ⟨_ | _, _, _⟩ := o <;> rfl

theorem andThen_map (o : Outcome σ α) (f : α → β) (next : β → Action σ γ) :
    (o.map f).andThen next = o.andThen fun a => next (f a) := by
  obtain ⟨_ | _, _, _⟩ := o <;> rfl

theorem map_andThen (o : Outcome σ α) (next : α → Action σ β) (f : β → γ) :
    (o.andThen next).map f = o.andThen fun a s supply => (next a s supply).map f := by
  obtain ⟨_ | _, _, _⟩ := o <;> rfl

theorem andThen_assoc (o : Outcome σ α) (next : α → Action σ β) (last : β → Action σ γ) :
    (o.andThen next).andThen last =
      o.andThen fun a s supply => (next a s supply).andThen last := by
  obtain ⟨_ | _, _, _⟩ := o <;> rfl

end Outcome

namespace Change

theorem aggregate_assoc (a b : Change) :
    (a.aggregate b).aggregate = fun c => a.aggregate (b.aggregate c) := by
  funext c
  cases a <;> cases b <;> cases c <;> rfl

@[simp] theorem isChange_aggregate (a b : Change) :
    (a.aggregate b).isChange = (a.isChange || b.isChange) := by
  cases a <;> cases b <;> rfl

/-- The answer of merges that all succeed: whether any of them did something. -/
def together (changes : List Change) : Change :=
  if changes.any isChange then modified else unchanged

theorem together_cons (change : Change) (changes : List Change) :
    together (change :: changes) = change.aggregate (together changes) := by
  unfold together
  rw [List.any_cons]
  cases changes.any isChange <;> cases change <;> rfl

/-- Nothing done before adds nothing to a common answer. -/
theorem unchanged_aggregate (a b : Change) :
    unchanged.aggregate (a.aggregate b) = a.aggregate b := by
  cases a <;> cases b <;> rfl

end Change

/-! ## One after another -/

namespace Action

theorem map_aggregate_each (merge : β → Action σ Change) (xs : List β) (s : σ)
    (supply : Supply) :
    (each merge xs s supply).map Change.unchanged.aggregate = each merge xs s supply := by
  cases xs with
  | nil => rfl
  | cons x rest => simp only [each_cons, Outcome.map_andThen, Outcome.map_map,
      Change.unchanged_aggregate]

/-- A run over two lists is one run and then the other. -/
theorem each_append (merge : β → Action σ Change) (xs ys : List β) (s : σ) (supply : Supply) :
    each merge (xs ++ ys) s supply = (each merge xs s supply).andThen fun change s supply =>
      (each merge ys s supply).map change.aggregate := by
  induction xs generalizing s supply with
  | nil => exact (map_aggregate_each merge ys s supply).symm
  | cons x rest ih =>
      rw [List.cons_append, each_cons, each_cons, Outcome.andThen_assoc]
      simp only [ih, Outcome.map_andThen, Outcome.andThen_map, Outcome.map_map,
        Change.aggregate_assoc]

/-- Runs over lists one after another are one run over all that is in the lists. -/
theorem each_flatMap (merge : β → Action σ Change) (f : γ → List β) (cs : List γ) :
    each (fun c => each merge (f c)) cs = each merge (cs.flatMap f) := by
  induction cs with
  | nil => rfl
  | cons c rest ih =>
      funext s supply
      rw [each_cons, List.flatMap_cons, each_append, ih]

theorem each_map (merge : β → Action σ Change) (f : γ → β) (cs : List γ) :
    each merge (cs.map f) = each (fun c => merge (f c)) cs := by
  induction cs with
  | nil => rfl
  | cons c rest ih =>
      funext s supply
      rw [List.map_cons, each_cons, each_cons, ih]

theorem each_congr {merge merge' : β → Action σ Change} {xs : List β}
    (same : ∀ x ∈ xs, merge x = merge' x) : each merge xs = each merge' xs := by
  induction xs with
  | nil => rfl
  | cons x rest ih =>
      funext s supply
      rw [each_cons, each_cons, same x List.mem_cons_self,
        ih fun y member => same y (List.mem_cons_of_mem x member)]

/-- Runs are alike when their merges are, one by one. -/
theorem each_alike {R : σ → τ → Prop} {merge : β → Action σ Change}
    {merge' : β → Action τ Change} {xs : List β}
    (step : ∀ x ∈ xs, ∀ s t supply, R s t →
      Outcome.Alike R (merge x s supply) (merge' x t supply)) :
    ∀ s t supply, R s t → Outcome.Alike R (each merge xs s supply) (each merge' xs t supply) := by
  induction xs with
  | nil =>
      intro s t supply related
      exact ⟨rfl, rfl, related⟩
  | cons x rest ih =>
      intro s t supply related
      rw [each_cons, each_cons]
      apply (step x List.mem_cons_self s t supply related).andThen
      intro change s t supply related
      exact (ih (fun y member => step y (List.mem_cons_of_mem x member)) s t supply related).map _

/-- What every merge of a run keeps of the state and of the cells that are left, the run keeps. -/
theorem each_invariant {P : σ → Supply → Prop} {merge : β → Action σ Change} {xs : List β}
    (step : ∀ x ∈ xs, ∀ s supply, P s supply → P (merge x s supply).state (merge x s supply).supply)
    (s : σ) (supply : Supply) (holds : P s supply) :
    P (each merge xs s supply).state (each merge xs s supply).supply := by
  induction xs generalizing s supply with
  | nil => exact holds
  | cons x rest ih =>
      have first := step x List.mem_cons_self s supply holds
      rw [each_cons]
      cases result : (merge x s supply).result with
      | error e =>
          rw [Outcome.andThen_of_error result]
          exact first
      | ok change =>
          rw [Outcome.andThen_of_ok result]
          exact ih (fun y member => step y (List.mem_cons_of_mem x member)) _ _ first

/-- Where each merge of a run succeeds, and leaves what holds of the things before it to hold of it
as well, the run succeeds and leaves this to hold of all. -/
theorem each_succeeds {P : List β → σ → Supply → Prop} {merge : β → Action σ Change} {xs : List β}
    (step : ∀ before x behind, xs = before ++ x :: behind → ∀ s supply, P before s supply →
      (∃ change, (merge x s supply).result = .ok change) ∧
        P (before ++ [x]) (merge x s supply).state (merge x s supply).supply)
    {s : σ} {supply : Supply} (start : P [] s supply) :
    (∃ change, (each merge xs s supply).result = .ok change) ∧
      P xs (each merge xs s supply).state (each merge xs s supply).supply := by
  suffices run : ∀ rest before s supply, xs = before ++ rest → P before s supply →
      (∃ change, (each merge rest s supply).result = .ok change) ∧
        P xs (each merge rest s supply).state (each merge rest s supply).supply from
    run xs [] s supply rfl start
  intro rest
  induction rest with
  | nil =>
      intro before s supply is holds
      rw [List.append_nil] at is
      exact ⟨⟨_, rfl⟩, is ▸ holds⟩
  | cons x rest ih =>
      intro before s supply is holds
      obtain ⟨⟨change, ok⟩, next⟩ := step before x rest is s supply holds
      obtain ⟨⟨others, ok'⟩, after⟩ :=
        ih (before ++ [x]) _ _ (by rw [is, List.append_cons]) next
      rw [each_cons, Outcome.andThen_of_ok ok, Outcome.result_map, ok']
      exact ⟨⟨_, rfl⟩, after⟩

/-- Runs in a part of the state are runs in the whole: the laws say that the part can be taken out
and put back. -/
theorem each_part (get : σ → τ) (put : σ → τ → σ) (put_get : ∀ s, put s (get s) = s)
    (get_put : ∀ s t, get (put s t) = t) (put_put : ∀ s t t', put (put s t) t' = put s t')
    (act : β → Action τ Change) (xs : List β) :
    each (fun x s supply => (act x (get s) supply).mapState (put s)) xs =
      fun s supply => (each act xs (get s) supply).mapState (put s) := by
  funext s supply
  have alike : Outcome.Alike (fun t s' => s' = put s t) (each act xs (get s) supply)
      (each (fun x s supply => (act x (get s) supply).mapState (put s)) xs s supply) := by
    refine each_alike (fun x _ t s' supply related => ?_) (get s) s supply (put_get s).symm
    rw [related, get_put]
    exact ⟨rfl, rfl, put_put s t _⟩
  exact Outcome.Alike.eq ⟨alike.result.symm, alike.supply.symm, alike.state⟩

end Action

/-! ## Single merges -/

/-- What single merges came to: the answers of those that succeeded, the failure of the first that
did not, and the state and the supply before that one. -/
structure Trace (σ : Type) where
  changes : List Change
  failure : Option MergeError
  state : σ
  supply : Supply

/-- The failure or, when there is none, what the merges did together. -/
def Trace.report (t : Trace σ) : Except MergeError Change :=
  match t.failure with
  | some e => .error e
  | none => .ok (Change.together t.changes)

namespace Action

/-- Merges one thing at a time, up to and excluding the first that fails. -/
def singly (merge : β → Action σ Change) : List β → σ → Supply → Trace σ
  | [], s, supply => ⟨[], none, s, supply⟩
  | x :: rest, s, supply =>
    let first := merge x s supply
    match first.result with
    | .error e => ⟨[], some e, s, supply⟩
    | .ok change =>
      let others := singly merge rest first.state first.supply
      { others with changes := change :: others.changes }

variable {merge : β → Action σ Change} {x : β} {rest : List β} {s : σ} {supply : Supply}

theorem singly_cons_of_error {e : MergeError} (failed : (merge x s supply).result = .error e) :
    singly merge (x :: rest) s supply = ⟨[], some e, s, supply⟩ := by
  simp only [singly, failed]

theorem singly_cons_of_ok {change : Change} (ok : (merge x s supply).result = .ok change) :
    singly merge (x :: rest) s supply =
      let others := singly merge rest (merge x s supply).state (merge x s supply).supply
      { others with changes := change :: others.changes } := by
  simp only [singly, ok]

theorem report_cons (change : Change) (t : Trace σ) :
    Trace.report { t with changes := change :: t.changes } = t.report.map change.aggregate := by
  obtain ⟨changes, _ | e, s, supply⟩ := t
  · exact congrArg Except.ok (Change.together_cons change changes)
  · rfl

/-- A run answers what the single merges report. -/
theorem result_each (merge : β → Action σ Change) (xs : List β) (s : σ) (supply : Supply) :
    (each merge xs s supply).result = (singly merge xs s supply).report := by
  induction xs generalizing s supply with
  | nil => rfl
  | cons x rest ih =>
      rw [each_cons]
      cases result : (merge x s supply).result with
      | error e =>
          rw [Outcome.andThen_of_error result, singly_cons_of_error result]
          rfl
      | ok change =>
          rw [Outcome.andThen_of_ok result, singly_cons_of_ok result, Outcome.result_map, ih,
            report_cons]

/-- A run that succeeds answers in one of two ways. -/
theorem answer_each {merge : β → Action σ Change} {xs : List β} {s : σ} {supply : Supply}
    {change : Change} (ok : (each merge xs s supply).result = .ok change) :
    change = if change.isChange then .modified else .unchanged := by
  rw [result_each, Trace.report] at ok
  split at ok
  · exact absurd ok nofun
  · rw [← Except.ok.inj ok, Change.together]
    split <;> rfl

/-- A run leaves what the single merges do, and what the one that fails leaves. -/
theorem state_each {P : σ → Prop} {same : σ → σ → Prop} {xs : List β}
    (keeps : ∀ x ∈ xs, ∀ s supply, P s → P (merge x s supply).state)
    (refl : ∀ s, P s → same s s)
    (fails : ∀ x ∈ xs, ∀ s supply e, P s → (merge x s supply).result = .error e →
      same s (merge x s supply).state) :
    ∀ s supply, P s → same (singly merge xs s supply).state (each merge xs s supply).state := by
  induction xs with
  | nil =>
      intro s supply holds
      exact refl s holds
  | cons x rest ih =>
      intro s supply holds
      rw [each_cons]
      cases result : (merge x s supply).result with
      | error e =>
          rw [Outcome.andThen_of_error result, singly_cons_of_error result]
          exact fails x List.mem_cons_self s supply e holds result
      | ok change =>
          rw [Outcome.andThen_of_ok result, singly_cons_of_ok result]
          exact ih (fun y member => keeps y (List.mem_cons_of_mem x member))
            (fun y member => fails y (List.mem_cons_of_mem x member)) _ _
            (keeps x List.mem_cons_self s supply holds)

/-- The bulk merge answers what single merges of the things report, and leaves a state that shows
what theirs does. -/
def Replays (same : σ → σ → Prop) (bulk : Action σ Change) (merge : β → Action σ Change)
    (xs : List β) (s : σ) : Prop :=
  ∀ supply, (bulk s supply).result = (singly merge xs s supply).report ∧
    same (singly merge xs s supply).state (bulk s supply).state

/-- A bulk merge that is alike to a run replays the merges of the run. -/
theorem replays_of_alike {P : σ → Prop} {same : σ → σ → Prop} {bulk : Action σ Change}
    {xs : List β} (keeps : ∀ x ∈ xs, ∀ s supply, P s → P (merge x s supply).state)
    (refl : ∀ s, P s → same s s)
    (trans : ∀ {s s' s''}, same s s' → same s' s'' → same s s'')
    (fails : ∀ x ∈ xs, ∀ s supply e, P s → (merge x s supply).result = .error e →
      same s (merge x s supply).state)
    (holds : P s) (alike : ∀ supply, (each merge xs s supply).Alike same (bulk s supply)) :
    Replays same bulk merge xs s := by
  intro supply
  refine ⟨(alike supply).result.symm.trans (result_each merge xs s supply), ?_⟩
  exact trans (state_each keeps refl fails s supply holds) (alike supply).state

end Action

end HostProfile
