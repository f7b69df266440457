import HostProfile.Handle
import HostProfile.KeyedTable
import Mathlib.Data.List.Forall2

/-!
# Passes over a list

An evaluation goes through a list from the front, changes each element where it lies and adds up
the answers. At the first element that fails it stops: what lies before that one has been changed
then, and what lies behind it has not been touched.
-/

namespace HostProfile

/-- What an evaluation of `s` may leave: it is finished and answers with the right count, or it has
failed and is halted. -/
def Evaluates {σ : Type} (finished : σ → σ → Prop) (halted : MergeError → σ → σ → Prop)
    (count : σ → σ → Nat) (s : σ) (o : Outcome σ Nat) : Prop :=
  (∃ n, o.result = .ok n ∧ finished s o.state ∧ n = count s o.state) ∨
    ∃ e, o.result = .error e ∧ halted e s o.state

namespace Evaluates

variable {σ : Type} {finished : σ → σ → Prop} {halted : MergeError → σ → σ → Prop}
  {count : σ → σ → Nat} {s : σ} {o : Outcome σ Nat}

theorem of_ok (evaluates : Evaluates finished halted count s o) {n : Nat}
    (ok : o.result = .ok n) : finished s o.state ∧ n = count s o.state := by
  rcases evaluates with ⟨m, result, reached⟩ | ⟨e, result, -⟩
  · obtain rfl := Except.ok.inj (result.symm.trans ok)
    exact reached
  · exact absurd (result.symm.trans ok) nofun

theorem of_error (evaluates : Evaluates finished halted count s o) {e : MergeError}
    (failed : o.result = .error e) : halted e s o.state := by
  rcases evaluates with ⟨n, result, -⟩ | ⟨e', result, reached⟩
  · exact absurd (result.symm.trans failed) nofun
  · obtain rfl := Except.error.inj (result.symm.trans failed)
    exact reached

end Evaluates

/-- A pass that stopped on its way: some elements are finished, the next one is halted, and the ones
behind it are as they were. -/
def Stopped {α : Type} (finished halted : α → α → Prop) (before after : List α) : Prop :=
  ∃ done x rest done' x', before = done ++ x :: rest ∧ after = done' ++ x' :: rest ∧
    List.Forall₂ finished done done' ∧ halted x x'

namespace Stopped

variable {α : Type} {xs xs' : List α} {finished halted : α → α → Prop}

theorem head {x x' : α} (halt : halted x x') : Stopped finished halted (x :: xs) (x' :: xs) :=
  ⟨[], x, xs, [], x', rfl, rfl, .nil, halt⟩

theorem exists_halted (stopped : Stopped finished halted xs xs') : ∃ x ∈ xs, ∃ x', halted x x' := by
  obtain ⟨done, x, rest, done', x', rfl, rfl, -, halt⟩ := stopped
  exact ⟨x, List.mem_append_right done List.mem_cons_self, x', halt⟩

theorem cons {x x' : α} (first : finished x x') (stopped : Stopped finished halted xs xs') :
    Stopped finished halted (x :: xs) (x' :: xs') := by
  obtain ⟨done, y, rest, done', y', rfl, rfl, related, halt⟩ := stopped
  exact ⟨x :: done, y, rest, x' :: done', y', rfl, rfl, .cons first related, halt⟩

/-- A pass stopped at the first element or behind it. -/
theorem cases_cons {x : α} (stopped : Stopped finished halted (x :: xs) xs') :
    (∃ x', xs' = x' :: xs ∧ halted x x') ∨
      ∃ x' rest', xs' = x' :: rest' ∧ finished x x' ∧ Stopped finished halted xs rest' := by
  obtain ⟨done, y, rest, done', y', before, rfl, related, halt⟩ := stopped
  cases related with
  | nil =>
      obtain ⟨rfl, rfl⟩ := List.cons.inj before
      exact .inl ⟨y', rfl, halt⟩
  | cons first related =>
      obtain ⟨rfl, rfl⟩ := List.cons.inj before
      exact .inr ⟨_, _, rfl, first, _, y, rest, _, y', rfl, rfl, related, halt⟩

/-- A pass stopped at the first element that it could not leave behind. -/
theorem of_append {done : List α} {x : α} (passes : ∀ y ∈ done, ∀ y', ¬ halted y y')
    (stops : ∀ x', ¬ finished x x') :
    ∀ {xs'}, Stopped finished halted (done ++ x :: xs) xs' →
      ∃ done' x', xs' = done' ++ x' :: xs ∧ List.Forall₂ finished done done' ∧ halted x x' := by
  induction done with
  | nil =>
      intro xs' stopped
      obtain ⟨x', is, halt⟩ | ⟨x', rest', -, finish, -⟩ := stopped.cases_cons
      · exact ⟨[], x', is, .nil, halt⟩
      · exact absurd finish (stops x')
  | cons y rest ih =>
      intro xs' stopped
      rw [List.forall_mem_cons] at passes
      obtain ⟨y', -, halt⟩ | ⟨y', rest', rfl, finish, behind⟩ := stopped.cases_cons
      · exact absurd halt (passes.1 y')
      · obtain ⟨done', x', rfl, related, halt⟩ := ih passes.2 behind
        exact ⟨y' :: done', x', rfl, .cons finish related, halt⟩

/-- A pass over lists of lists stopped in one of these, and so did the pass over all elements. -/
theorem flatMap {β : Type} {f : α → List β} {finished' halted' : β → β → Prop}
    (stopped : Stopped finished halted xs xs')
    (finishes : ∀ x x', finished x x' → List.Forall₂ finished' (f x) (f x'))
    (halts : ∀ x x', halted x x' → Stopped finished' halted' (f x) (f x')) :
    Stopped finished' halted' (xs.flatMap f) (xs'.flatMap f) := by
  obtain ⟨done, x, rest, done', x', rfl, rfl, related, halt⟩ := stopped
  obtain ⟨early, y, late, early', y', was, is, others, halt⟩ := halts x x' halt
  refine ⟨done.flatMap f ++ early, y, late ++ rest.flatMap f, done'.flatMap f ++ early', y', ?_, ?_,
    List.rel_append (List.rel_flatMap related finishes) others, halt⟩
  · rw [List.flatMap_append, List.flatMap_cons, was]
    simp only [List.append_assoc, List.cons_append]
  · rw [List.flatMap_append, List.flatMap_cons, is]
    simp only [List.append_assoc, List.cons_append]

end Stopped

/-! ## Counting changes -/

section

variable {T : Type} [Item T]

/-- The number of places at which the definitions of two lists have different priorities. -/
def changes (before after : List (Handle T)) : Nat :=
  (before.zip after).countP fun pair => Item.priority pair.2.item != Item.priority pair.1.item

theorem changes_append {xs xs' ys ys' : List (Handle T)} (same : xs.length = xs'.length) :
    changes (xs ++ ys) (xs' ++ ys') = changes xs xs' + changes ys ys' := by
  rw [changes, List.zip_append same, List.countP_append]
  rfl

theorem changes_cons (x x' : Handle T) (xs xs' : List (Handle T)) :
    changes (x :: xs) (x' :: xs') =
      (if Item.priority x'.item = Item.priority x.item then 0 else 1) + changes xs xs' := by
  simp only [changes, List.zip_cons_cons, List.countP_cons]
  split <;> simp_all [Nat.add_comm]

theorem changes_self (xs : List (Handle T)) : changes xs xs = 0 := by
  induction xs with
  | nil => rfl
  | cons x xs ih => rw [changes_cons, if_pos rfl, ih]

end

/-! ## Passes over tables -/

namespace KeyedTable

variable {S T : Type} [Item T] {act : Action S Nat} {finished : S → S → Prop}
  {halted : MergeError → S → S → Prop} {items : S → List (Handle T)}

theorem evaluates_visit
    (acts : ∀ s supply, Evaluates finished halted (fun s s' => changes (items s) (items s')) s
      (act s supply))
    (corresponding : ∀ s s', finished s s' → (items s).length = (items s').length)
    (bs : List (Option S)) (supply : Supply) :
    Evaluates (fun bs bs' => List.Forall₂ finished (bs.filterMap id) (bs'.filterMap id))
      (fun e bs bs' => Stopped finished (halted e) (bs.filterMap id) (bs'.filterMap id))
      (fun bs bs' => changes ((bs.filterMap id).flatMap items) ((bs'.filterMap id).flatMap items))
      bs (visit act bs supply) := by
  fun_induction visit act bs supply with
  | case1 => exact .inl ⟨0, rfl, .nil, rfl⟩
  | case2 rest supply ih => exact ih
  | case3 slot rest supply first e failed =>
      exact .inr ⟨e, rfl, Stopped.head ((acts slot supply).of_error failed)⟩
  | case4 slot rest supply first n ok ih =>
      obtain ⟨related, counted⟩ := (acts slot supply).of_ok ok
      rcases ih with ⟨m, result, others, total⟩ | ⟨e, result, stopped⟩
      · refine .inl ⟨n + m, congrArg (Except.map (n + ·)) result, .cons related others, ?_⟩
        rw [counted, total]
        exact (changes_append (corresponding slot _ related)).symm
      · exact .inr ⟨e, congrArg (Except.map (n + ·)) result, stopped.cons related⟩

/-- An action on all slots is a pass over them in the order of their buckets. -/
theorem evaluates_eachSlot
    (acts : ∀ s supply, Evaluates finished halted (fun s s' => changes (items s) (items s')) s
      (act s supply))
    (corresponding : ∀ s s', finished s s' → (items s).length = (items s').length)
    (t : KeyedTable S) (supply : Supply) :
    Evaluates (fun t t' => List.Forall₂ finished t.slots t'.slots)
      (fun e t t' => Stopped finished (halted e) t.slots t'.slots)
      (fun t t' => changes (t.slots.flatMap items) (t'.slots.flatMap items)) t
      (eachSlot act t supply) :=
  evaluates_visit acts corresponding t.buckets.toList supply

end KeyedTable

end HostProfile
