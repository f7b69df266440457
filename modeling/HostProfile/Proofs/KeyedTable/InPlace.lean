import HostProfile.Proofs.KeyedTable.Operations

/-!
# Changing slots where they are

Where a slot lies depends on its key alone. A change that leaves every bucket taken or empty, and
every slot its key, keeps a table sound, and each search ends where it did before.
-/

namespace HostProfile.KeyedTable

theorem isNone_of_rel {α β : Type} {R : α → β → Prop} {a? : Option α} {b? : Option β}
    (related : Option.Rel R a? b?) : b?.isNone = a?.isNone := by
  cases related <;> rfl

theorem exists_of_rel_some {α β : Type} {R : α → β → Prop} {a? : Option α} {b : β}
    (related : Option.Rel R a? (some b)) : ∃ a, a? = some a ∧ R a b := by
  cases related with
  | some related => exact ⟨_, rfl, related⟩

theorem exists_of_some_rel {α β : Type} {R : α → β → Prop} {a : α} {b? : Option β}
    (related : Option.Rel R (some a) b?) : ∃ b, b? = some b ∧ R a b := by
  cases related with
  | some related => exact ⟨_, rfl, related⟩

theorem rel_trans {α β γ : Type} {R : α → β → Prop} {S : β → γ → Prop} {Q : α → γ → Prop}
    {a? : Option α} {b? : Option β} {c? : Option γ} (first : Option.Rel R a? b?)
    (second : Option.Rel S b? c?) (compose : ∀ {a b c}, R a b → S b c → Q a c) :
    Option.Rel Q a? c? := by
  cases first with
  | none =>
      cases second with
      | none => exact .none
  | some first =>
      cases second with
      | some second => exact .some (compose first second)

variable {S : Type} [Slot S] {t t' : KeyedTable S}

/-- Two tables with the same keys in the same buckets. -/
structure SameKeys (t t' : KeyedTable S) : Prop where
  bucketCount : t'.bucketCount = t.bucketCount
  keys : ∀ i, (t'.slotAt i).map Slot.key = (t.slotAt i).map Slot.key

namespace SameKeys

theorem isSome (h : SameKeys t t') (i : Nat) : (t'.slotAt i).isSome = (t.slotAt i).isSome := by
  rw [← Option.isSome_map (f := Slot.key), h.keys, Option.isSome_map]

theorem slotAt (h : SameKeys t t') {i : Nat} {a : S} (ha : t'.slotAt i = some a) :
    ∃ b, t.slotAt i = some b ∧ Slot.key b = Slot.key a := by
  have keys := h.keys i
  rw [ha, Option.map_some] at keys
  exact Option.map_eq_some_iff.mp keys.symm

theorem home (h : SameKeys t t') (key : String) : t'.home key = t.home key := by
  simp only [KeyedTable.home, h.bucketCount]

theorem distance (h : SameKeys t t') (i j : Nat) : t'.distance i j = t.distance i j := by
  simp only [KeyedTable.distance, h.bucketCount]

theorem sound (h : SameKeys t t') (ht : t.Sound) : t'.Sound := by
  refine ⟨?_, ?_, ?_⟩
  · intro i j a b ha hb same
    obtain ⟨a', ha', keya⟩ := h.slotAt ha
    obtain ⟨b', hb', keyb⟩ := h.slotAt hb
    exact ht.unique ha' hb' (by rw [keya, keyb, same])
  · intro i a ha k hk before
    obtain ⟨a', ha', keya⟩ := h.slotAt ha
    rw [h.home, h.distance, h.distance, ← keya] at before
    rw [h.bucketCount] at hk
    rw [h.isSome]
    exact ht.reach ha' k hk before
  · obtain ⟨e, he, hlast⟩ := ht.last
    refine ⟨e, by rwa [h.bucketCount], fun {i a} ha => ?_⟩
    obtain ⟨a', ha', keya⟩ := h.slotAt ha
    rw [h.home, h.distance, h.distance, ← keya]
    exact hlast ha'

theorem blocked_iff (h : SameKeys t t') {key : String} {i : Nat} :
    t'.Blocked key i ↔ t.Blocked key i := by
  have keys := h.keys i
  unfold Blocked
  cases ha : t'.slotAt i <;> cases hb : t.slotAt i <;> simp_all

theorem probe (h : SameKeys t t') (key : String) : t'.probe key = t.probe key := by
  apply Option.ext
  intro i
  simp only [probe_eq_some_iff, h.blocked_iff, h.bucketCount, h.home, h.distance]

/-- A relation that holds bucket by bucket holds of what is found under each key. -/
theorem find? (h : SameKeys t t') {R : S → S → Prop}
    (each : ∀ {i : Nat} {a b : S}, t.slotAt i = some a → t'.slotAt i = some b → R a b)
    (key : String) : Option.Rel R (t.find? key) (t'.find? key) := by
  unfold KeyedTable.find?
  rw [h.probe]
  cases t.probe key with
  | none => exact .none
  | some i =>
      change Option.Rel R (t.slotAt i) (t'.slotAt i)
      have there := h.isSome i
      cases ha : t.slotAt i <;> cases hb : t'.slotAt i
      · exact .none
      · simp [ha, hb] at there
      · simp [ha, hb] at there
      · exact .some (each ha hb)

end SameKeys

omit [Slot S] in
@[simp] theorem slotAt_mapSlots (f : S → S) (i : Nat) :
    (t.mapSlots f).slotAt i = (t.slotAt i).map f := by
  simp only [slotAt, mapSlots, Array.getElem?_map]
  cases t.buckets[i]? <;> rfl

theorem sameKeys_mapSlots {f : S → S} (keeps : ∀ s, Slot.key (f s) = Slot.key s) :
    SameKeys t (t.mapSlots f) where
  bucketCount := Array.size_map
  keys i := by
    rw [slotAt_mapSlots, Option.map_map]
    exact congrArg (Option.map · (t.slotAt i)) (funext keeps)

theorem find?_mapSlots {f : S → S} (keeps : ∀ s, Slot.key (f s) = Slot.key s) (key : String) :
    (t.mapSlots f).find? key = (t.find? key).map f := by
  unfold find?
  rw [(sameKeys_mapSlots keeps).probe]
  cases t.probe key with
  | none => rfl
  | some i => exact slotAt_mapSlots f i

/-- A search for another key does not end at a bucket that holds this one. -/
theorem slotAt_eq_none_of_probe {key other : String} {i : Nat} (hi : t.probe key = some i)
    (hother : t.probe other = some i) (ne : other ≠ key) : t.slotAt i = none := by
  refine Option.eq_none_iff_forall_ne_some.mpr fun a ha => ne ?_
  rw [← not_blocked_iff.mp (probe_eq_some_iff.mp hother).2.1 a ha,
    ← not_blocked_iff.mp (probe_eq_some_iff.mp hi).2.1 a ha]

/-- A slot that is changed where it lies, and keeps its key, leaves every key in its bucket. -/
theorem sameKeys_put_map {key : String} {i : Nat} (hi : t.probe key = some i) {f : S → S}
    (keeps : ∀ s, Slot.key s = key → Slot.key (f s) = key) :
    SameKeys t (t.put i ((t.slotAt i).map f)) := by
  obtain ⟨lt, isOpen, -⟩ := probe_eq_some_iff.mp hi
  refine ⟨bucketCount_put t i _, ?_⟩
  intro j
  rw [slotAt_put lt]
  split
  · next eq =>
    subst eq
    cases ha : t.slotAt j with
    | none => rfl
    | some a =>
        have at_key := not_blocked_iff.mp isOpen a ha
        simp only [Option.map_some, keeps a at_key, at_key]
  · rfl

theorem Sound.modify (ht : t.Sound) {key : String} {f : S → S}
    (keeps : ∀ s, Slot.key s = key → Slot.key (f s) = key) :
    (t.modify key f).Sound ∧
      ∀ k, (t.modify key f).find? k = if k = key then (t.find? key).map f else t.find? k := by
  unfold KeyedTable.modify
  cases hi : t.probe key with
  | none =>
      refine ⟨ht, ?_⟩
      intro k
      change t.find? k = _
      split
      · next eq => rw [eq, KeyedTable.find?, hi]; rfl
      · rfl
  | some i =>
      obtain ⟨lt, -, -⟩ := probe_eq_some_iff.mp hi
      have same := sameKeys_put_map hi keeps
      refine ⟨same.sound ht, ?_⟩
      intro k
      change (t.put i ((t.slotAt i).map f)).find? k = _
      split
      · next eq =>
        rw [eq, Sound.find?_of_probe (by rw [same.probe, hi]), slotAt_put_self lt,
          Sound.find?_of_probe hi]
      · next ne =>
        cases hk : t.probe k with
        | none =>
            simp only [KeyedTable.find?, same.probe, hk]
            rfl
        | some j =>
            rw [Sound.find?_of_probe (by rw [same.probe, hk]), Sound.find?_of_probe hk,
              slotAt_put lt]
            split
            · next eq =>
              subst eq
              rw [slotAt_eq_none_of_probe hi hk ne]
              rfl
            · rfl

omit [Slot S] in
/-- An action on slots one after another leaves each slot as it was or as the action left it. -/
theorem visit_rel {R : S → S → Prop} {act : Action S Nat} (refl : ∀ s, R s s)
    (acts : ∀ s supply, R s (act s supply).state) (bs : List (Option S)) (supply : Supply) :
    ∀ i : Nat, Option.Rel R bs[i]?.join (visit act bs supply).state[i]?.join := by
  have untouched (o : Option S) : Option.Rel R o o := by
    cases o with
    | none => exact .none
    | some s => exact .some (refl s)
  fun_induction visit act bs supply with
  | case1 => exact fun i => untouched _
  | case2 rest supply ih =>
      intro i
      cases i with
      | zero => exact .none
      | succ i => exact ih i
  | case3 slot rest supply first e failed =>
      intro i
      cases i with
      | zero => exact .some (acts slot supply)
      | succ i => exact untouched _
  | case4 slot rest supply first n done ih =>
      intro i
      cases i with
      | zero => exact .some (acts slot supply)
      | succ i => exact ih i

omit [Slot S] in
/-- When none of the slots fails, the action has left every slot. -/
theorem visit_rel_of_ok {R : S → S → Prop} {act : Action S Nat}
    (acts : ∀ s supply n, (act s supply).result = .ok n → R s (act s supply).state)
    (bs : List (Option S)) (supply : Supply) :
    ∀ n, (visit act bs supply).result = .ok n →
      ∀ i : Nat, Option.Rel R bs[i]?.join (visit act bs supply).state[i]?.join := by
  fun_induction visit act bs supply with
  | case1 => exact fun _ _ _ => .none
  | case2 rest supply ih =>
      intro n ok i
      cases i with
      | zero => exact .none
      | succ i => exact ih n ok i
  | case3 slot rest supply first e failed =>
      intro n ok
      cases ok
  | case4 slot rest supply first m done ih =>
      intro n ok i
      cases i with
      | zero => exact .some (acts slot supply m done)
      | succ i =>
          cases others : (visit act rest first.supply).result with
          | error e => simp [Outcome.mapState, Outcome.map, others, Except.map] at ok
          | ok k => exact ih k others i

omit [Slot S] in
theorem slotAt_eachSlot (act : Action S Nat) (t : KeyedTable S) (supply : Supply) (i : Nat) :
    (eachSlot act t supply).state.slotAt i =
      (visit act t.buckets.toList supply).state[i]?.join := by
  simp only [eachSlot, slotAt, List.getElem?_toArray]

omit [Slot S] in
theorem bucketCount_eachSlot (act : Action S Nat) (t : KeyedTable S) (supply : Supply) :
    (eachSlot act t supply).state.bucketCount = t.bucketCount := by
  simp only [eachSlot, bucketCount, List.size_toArray, length_visit, Array.length_toList]

theorem sameKeys_eachSlot {act : Action S Nat}
    (keeps : ∀ s supply, Slot.key (act s supply).state = Slot.key s) (t : KeyedTable S)
    (supply : Supply) : SameKeys t (eachSlot act t supply).state where
  bucketCount := bucketCount_eachSlot act t supply
  keys i := by
    have each := visit_rel (R := fun s s' => Slot.key s' = Slot.key s) (fun _ => rfl) keeps
      t.buckets.toList supply i
    rw [Array.getElem?_toList, ← slotAt, ← slotAt_eachSlot] at each
    revert each
    generalize t.slotAt i = a, (eachSlot act t supply).state.slotAt i = b
    rintro (same | _)
    · exact congrArg some same
    · rfl

/-- What becomes of the slots in the buckets becomes of the slots under the keys. -/
theorem find?_eachSlot_of_visit {R : S → S → Prop} {act : Action S Nat}
    (keeps : ∀ s supply, Slot.key (act s supply).state = Slot.key s) {t : KeyedTable S}
    {supply : Supply} (each : ∀ i : Nat, Option.Rel R t.buckets.toList[i]?.join
      (visit act t.buckets.toList supply).state[i]?.join) (key : String) :
    Option.Rel R (t.find? key) ((eachSlot act t supply).state.find? key) := by
  refine (sameKeys_eachSlot keeps t supply).find? (fun {i a b} ha hb => ?_) key
  have related := each i
  rw [← slotAt_eachSlot, hb, Array.getElem?_toList] at related
  rw [slotAt] at ha
  rw [ha] at related
  cases related with
  | some rel => exact rel

/-- What an action on all slots leaves under each key. -/
theorem find?_eachSlot {R : S → S → Prop} {act : Action S Nat}
    (keeps : ∀ s supply, Slot.key (act s supply).state = Slot.key s) (refl : ∀ s, R s s)
    (acts : ∀ s supply, R s (act s supply).state) (t : KeyedTable S) (supply : Supply)
    (key : String) : Option.Rel R (t.find? key) ((eachSlot act t supply).state.find? key) :=
  find?_eachSlot_of_visit keeps (visit_rel refl acts t.buckets.toList supply) key

/-- What an action on all slots that fails on none leaves under each key. -/
theorem find?_eachSlot_of_ok {R : S → S → Prop} {act : Action S Nat}
    (keeps : ∀ s supply, Slot.key (act s supply).state = Slot.key s)
    (acts : ∀ s supply n, (act s supply).result = .ok n → R s (act s supply).state)
    (t : KeyedTable S) (supply : Supply) {n : Nat}
    (ok : (eachSlot act t supply).result = .ok n) (key : String) :
    Option.Rel R (t.find? key) ((eachSlot act t supply).state.find? key) :=
  find?_eachSlot_of_visit keeps (visit_rel_of_ok acts t.buckets.toList supply n ok) key

end HostProfile.KeyedTable
