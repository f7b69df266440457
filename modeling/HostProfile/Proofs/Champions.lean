import HostProfile.Proofs.Chain.Champions
import HostProfile.Proofs.Places

/-!
# Runs that leave the champions

Candidates are merged under the standard rules in any order. What is left at a place are the
champions of the candidates that were brought there: each merge of a run keeps this, and so does the
run, which never fails.
-/

namespace HostProfile

variable {σ β π T : Type} [Item T]

/-- The place has the contexts and the collision scope, and the champions of the definitions that
were merged there. -/
structure Site.Champions (set : ContextSet) (scope : KeyScope) (base : Cell)
    (done : List (Handle T)) (a : Site T) : Prop where
  contexts : a.contexts = some set
  scope : a.chain.scope = scope
  chain : a.chain.Champions set base done

theorem Site.Champions.merge [LawfulItem T] {set : ContextSet} {scope : KeyScope} {base : Cell}
    {all done : List (Handle T)} {a : Site T} {h : Handle T} {supply : Supply}
    (champions : a.Champions set scope base done) (candidates : Candidates set scope base all)
    (within : ∀ g ∈ done, g ∈ all) (among : h ∈ all) (new : base ≤ supply.next) :
    (∃ change, (Site.merge h a supply).result = .ok change) ∧
      (Site.merge h a supply).state.Champions set scope base (done ++ [h]) := by
  obtain ⟨contexts, rfl, chain⟩ := champions
  have merged := chain.merge candidates within among new
  rw [Site.merge, contexts]
  exact ⟨merged.1, rfl, Chain.scope_merge, merged.2⟩

namespace Sited

variable {S : Sited σ β π T} [DecidableEq π] {set : ContextSet} {scope : KeyScope} {base : Cell}
  {all : List (Handle T)} {done xs : List β} {x : β} {s : σ} {supply : Supply}

/-- The definitions of a list that belong to a place, with one more in the list. -/
theorem share_concat (done : List β) (x : β) (p : π) :
    S.share (done ++ [x]) p =
      if p = S.place x then S.share done p ++ [S.handle x] else S.share done p := by
  rw [share, List.filter_append, List.map_append, ← share]
  split
  · next same => rw [List.filter_cons_of_pos (by simp [same])]; rfl
  · next other => rw [List.filter_cons_of_neg (by simpa using Ne.symm other)]; simp

/-- Each place has the champions of the definitions that were merged there. -/
structure Champions (S : Sited σ β π T) (set : ContextSet) (scope : KeyScope) (base : Cell)
    (done : List β) (s : σ) (supply : Supply) : Prop where
  sound : S.sound s
  new : base ≤ supply.next
  places : ∀ p, (S.site s p).Champions set scope base (S.share done p)

namespace Champions

variable [LawfulItem T] (candidates : Candidates set scope base all)

include candidates

theorem merge (champions : S.Champions set scope base done s supply)
    (within : ∀ y ∈ done, S.handle y ∈ all) (among : S.handle x ∈ all) :
    (∃ change, (S.merge x s supply).result = .ok change) ∧
      S.Champions set scope base (done ++ [x]) (S.merge x s supply).state
        (S.merge x s supply).supply := by
  obtain ⟨result, -, state⟩ := S.here champions.sound x supply
  have within' (h : Handle T) (shared : h ∈ S.share done (S.place x)) : h ∈ all := by
    obtain ⟨y, before, rfl⟩ := exists_of_mem_share shared
    exact within y before
  have merged := (champions.places (S.place x)).merge candidates within' among champions.new
  refine ⟨result ▸ merged.1, S.keeps champions.sound x supply,
    Nat.le_trans champions.new (le_next_supply_merge champions.sound x supply), fun p => ?_⟩
  rw [share_concat]
  by_cases at_place : p = S.place x
  · rw [if_pos at_place, at_place, state]
    exact merged.2
  · rw [if_neg at_place, S.elsewhere champions.sound x supply at_place]
    exact champions.places p

/-- A run of candidates succeeds and leaves the champions at each place. -/
theorem each (start : S.Champions set scope base [] s supply) (among : ∀ x ∈ xs, S.handle x ∈ all) :
    (∃ change, (Action.each S.merge xs s supply).result = .ok change) ∧
      S.Champions set scope base xs (Action.each S.merge xs s supply).state
        (Action.each S.merge xs s supply).supply := by
  refine Action.each_succeeds (fun before x behind is s supply champions => ?_) start
  rw [is] at among
  exact champions.merge candidates
    (fun y member => among y (List.mem_append_left _ member))
    (among x (List.mem_append_right _ List.mem_cons_self))

end Champions

end Sited

end HostProfile
