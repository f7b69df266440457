import HostProfile.Profile
import HostProfile.Proofs.ComponentSet.Evaluation
import HostProfile.Proofs.Context.Name
import HostProfile.Proofs.Packages.Reachable

/-!
# Evaluations that fail

An evaluation takes nothing back. When it fails at a definition, those before it have been
evaluated in the new contexts, and every table that was finished by then has adopted these. The
definition itself and all behind it are as they were, and so are the contexts of the containers
that were not finished.
-/

namespace HostProfile

variable {set : ContextSet} {e : MergeError}

namespace PackageSet

/-- The set with all packages evaluated in the contexts, which it has adopted. -/
def Adopted (set : ContextSet) (s s' : PackageSet) : Prop := s.packages.Adopted set s'.packages

/-- The set after an evaluation that failed at one of its packages. -/
def Halted (set : ContextSet) (e : MergeError) (s s' : PackageSet) : Prop :=
  s.packages.Halted set e s'.packages

theorem evaluates_reevaluate (set : ContextSet) (s : PackageSet) (supply : Supply) :
    Evaluates (Adopted set) (Halted set)
      (fun s s' => changes s.packages.handles s'.packages.handles) s (reevaluate set s supply) :=
  ItemTable.evaluates_reevaluate set s.packages supply

theorem reevaluate_ok_iff (set : ContextSet) (s : PackageSet) (supply : Supply) :
    (∃ n, (reevaluate set s supply).result = .ok n) ↔
      ∀ h ∈ s.packages.handles, ∀ e, ¬ h.Malformed e :=
  ItemTable.reevaluate_ok_iff set s.packages supply

end PackageSet

namespace Profile

/-- The profile with everything evaluated in the contexts, which both parts have adopted. -/
structure Adopted (set : ContextSet) (p p' : Profile) : Prop where
  components : p.components.Adopted set p'.components
  packages : p.packages.Adopted set p'.packages

/-- The profile after an evaluation that failed: at a resource, with the packages as they were, or
at a package, with all components in the new contexts. -/
inductive Halted (set : ContextSet) (e : MergeError) (p : Profile) : Profile → Prop where
  | components {s : ComponentSet} (halted : p.components.Halted set e s) :
      Halted set e p { p with components := s }
  | packages {s : ComponentSet} {s' : PackageSet} (adopted : p.components.Adopted set s)
      (halted : p.packages.Halted set e s') : Halted set e p ⟨s, s'⟩

/-- The number of definitions that have another priority in the second profile. -/
def changes (p p' : Profile) : Nat :=
  HostProfile.changes p.components.handles p'.components.handles +
    HostProfile.changes p.packages.packages.handles p'.packages.packages.handles

theorem evaluates_reevaluate (set : ContextSet) (p : Profile) (supply : Supply) :
    Evaluates (Adopted set) (Halted set) changes p (reevaluate set p supply) := by
  unfold reevaluate
  rcases ComponentSet.evaluates_reevaluate set p.components supply with
    ⟨n, result, adopted, total⟩ | ⟨e, result, halted⟩
  · rw [Outcome.andThen_of_ok (o := onComponents _ p supply) result]
    rcases PackageSet.evaluates_reevaluate set p.packages
        (ComponentSet.reevaluate set p.components supply).supply with
      ⟨m, result', adopted', total'⟩ | ⟨e, result', halted⟩
    · refine .inl ⟨n + m, congrArg (Except.map (n + ·)) result', ⟨adopted, adopted'⟩, ?_⟩
      rw [total, total']
      rfl
    · exact .inr ⟨e, congrArg (Except.map (n + ·)) result', .packages adopted halted⟩
  · rw [Outcome.andThen_of_error (o := onComponents _ p supply) result]
    exact .inr ⟨e, rfl, .components halted⟩

/-- What becomes of the components does not depend on the packages. -/
theorem components_reevaluate (set : ContextSet) (p : Profile) (supply : Supply) :
    (reevaluate set p supply).state.components =
      (ComponentSet.reevaluate set p.components supply).state := by
  unfold reevaluate Outcome.andThen
  split <;> rfl

theorem reevaluate_ok_iff (set : ContextSet) (p : Profile) (supply : Supply) :
    (∃ n, (reevaluate set p supply).result = .ok n) ↔
      (∀ h ∈ p.components.handles, ∀ e, ¬ h.Malformed e) ∧
        ∀ h ∈ p.packages.packages.handles, ∀ e, ¬ h.Malformed e := by
  rw [← ComponentSet.reevaluate_ok_iff set p.components supply,
    ← ItemTable.reevaluate_ok_iff set p.packages.packages
      (ComponentSet.reevaluate set p.components supply).supply]
  unfold reevaluate
  cases first : (ComponentSet.reevaluate set p.components supply).result with
  | error e =>
      rw [Outcome.andThen_of_error (o := onComponents _ p supply) first]
      simp
  | ok n =>
      rw [Outcome.andThen_of_ok (o := onComponents _ p supply) first]
      constructor
      · rintro ⟨m, ok⟩
        obtain ⟨k, second, -⟩ := Outcome.result_map_eq_ok ok
        exact ⟨⟨n, rfl⟩, k, second⟩
      · rintro ⟨-, k, second⟩
        exact ⟨n + k, congrArg (Except.map (n + ·)) second⟩

end Profile

/-- An evaluation that fails stops where it is: whatever lies before the malformed definition has
been evaluated in the new contexts, containers that were finished by then have adopted these, and
everything else is as it was. -/
theorem failed_evaluation_halts {T : Type} [Item T] [LawfulItem T] :
    (∀ (t : ItemTable T) (set : ContextSet) (supply : Supply) (e : MergeError),
      (ItemTable.reevaluate set t supply).result = .error e →
        t.Halted set e (ItemTable.reevaluate set t supply).state) ∧
    (∀ (s : PackageSet) (set : ContextSet) (supply : Supply) (e : MergeError),
      (PackageSet.reevaluate set s supply).result = .error e →
        s.Halted set e (PackageSet.reevaluate set s supply).state) ∧
    (∀ (s : ComponentSet) (set : ContextSet) (supply : Supply) (e : MergeError),
      (ComponentSet.reevaluate set s supply).result = .error e →
        s.Halted set e (ComponentSet.reevaluate set s supply).state) ∧
    ∀ (p : Profile) (set : ContextSet) (supply : Supply) (e : MergeError),
      (Profile.reevaluate set p supply).result = .error e →
        p.Halted set e (Profile.reevaluate set p supply).state := by
  refine ⟨?_, ?_, ?_, ?_⟩
  · intro t set supply e failed
    exact (ItemTable.evaluates_reevaluate set t supply).of_error failed
  · intro s set supply e failed
    exact (PackageSet.evaluates_reevaluate set s supply).of_error failed
  · intro s set supply e failed
    exact (ComponentSet.evaluates_reevaluate set s supply).of_error failed
  · intro p set supply e failed
    exact (Profile.evaluates_reevaluate set p supply).of_error failed

theorem failed_evaluation_halts_at_malformed :
    let laptop : ContextSet := ⟨⟨[("laptop", 1)], by decide⟩⟩
    let package (cell : Cell) (name arch context : String) : Handle Package :=
      ⟨cell, cell + 1, { name, arch := some arch, context }⟩
    let resource (cell : Cell) (name context : String) : Handle Resource :=
      ⟨cell, cell + 1, { name, value := "22", context }⟩
    let zsh := package 0 "zsh" "x86_64" "laptop"
    let vim := package 2 "vim" "x86_64" "laptop"
    let stray := package 4 "vim" "aarch64" "$"
    let late := [package 6 "vim" "i686" "laptop", package 8 "git" "x86_64" "laptop"]
    let root := resource 10 "root" "laptop"
    let user := resource 12 "user" "laptop"
    let stray' := resource 14 "port" "$"
    let late' := [resource 16 "key" "laptop", resource 18 "at" "laptop"]
    let set : PackageSet := ⟨{
      table := .withBuckets 7, rules := .standard, bucket := .name, scope := .nameArch }⟩
    let editors := (zsh :: vim :: stray :: late).foldl
      (fun s h => (PackageSet.merge h s ⟨20⟩).state) set
    let names := ["www", "ssh", "ssh", "ssh", "cron"]
    let services := (names.zip (root :: user :: stray' :: late')).foldl
      (fun s named => (ComponentSet.mergeResource named.1 named.2 s ⟨20⟩).state) {}
    let p : Profile := ⟨services, editors⟩
    editors.packages.handles = zsh :: vim :: stray :: late ∧
      services.handles = root :: user :: stray' :: late' ∧
      (∃ e, (ItemTable.reevaluate laptop editors.packages ⟨20⟩).result = .error e ∧
        editors.packages.Halted laptop e (ItemTable.reevaluate laptop editors.packages ⟨20⟩).state ∧
        (ItemTable.reevaluate laptop editors.packages ⟨20⟩).state.handles.map
          (·.item.priority) = [1, 1, 0, 0, 0]) ∧
      (∃ e, (PackageSet.reevaluate laptop editors ⟨20⟩).result = .error e ∧
        editors.Halted laptop e (PackageSet.reevaluate laptop editors ⟨20⟩).state ∧
        (PackageSet.reevaluate laptop editors ⟨20⟩).state.packages.handles.map
          (·.item.priority) = [1, 1, 0, 0, 0]) ∧
      (∃ e, (ComponentSet.reevaluate laptop services ⟨20⟩).result = .error e ∧
        services.Halted laptop e (ComponentSet.reevaluate laptop services ⟨20⟩).state ∧
        (ComponentSet.reevaluate laptop services ⟨20⟩).state.handles.map
          (·.item.priority) = [1, 1, 0, 0, 0]) ∧
      ∃ e, (Profile.reevaluate laptop p ⟨20⟩).result = .error e ∧
        p.Halted laptop e (Profile.reevaluate laptop p ⟨20⟩).state := by
  intro laptop package resource zsh vim stray late root user stray' late' set editors names
    services p
  obtain ⟨table, packages, components, profile⟩ := failed_evaluation_halts (T := Package)
  have refused : Context.Expr.parse "$" = .error _ := Context.Expr.parse_of_stray rfl (by decide)
  have stored : editors.packages.handles = zsh :: vim :: stray :: late := by decide +kernel
  have stored' : services.handles = root :: user :: stray' :: late' := by decide +kernel
  have malformed : stray.Malformed (.item _) := ⟨_, refused, rfl⟩
  have malformed' : stray'.Malformed (.item _) := ⟨_, refused, rfl⟩
  have member : stray ∈ editors.packages.handles := by rw [stored]; simp
  have member' : stray' ∈ services.handles := by rw [stored']; simp
  have enabled : laptop.evaluate "laptop" = .ok 1 := laptop.evaluate_of_isValidName (by decide)
  have weighed : ∀ h ∈ [zsh, vim], laptop.evaluateItem h.item = .ok 1 :=
    List.forall_mem_cons.mpr ⟨enabled, List.forall_mem_singleton.mpr enabled⟩
  have weighed' : ∀ h ∈ [root, user], laptop.evaluateItem h.item = .ok 1 :=
    List.forall_mem_cons.mpr ⟨enabled, List.forall_mem_singleton.mpr enabled⟩
  have refused_table := Outcome.exists_error fun ok =>
    (ItemTable.reevaluate_ok_iff laptop editors.packages ⟨20⟩).mp ok _ member _ malformed
  have refused_set := Outcome.exists_error fun ok =>
    (PackageSet.reevaluate_ok_iff laptop editors ⟨20⟩).mp ok _ member _ malformed
  have refused_components := Outcome.exists_error fun ok =>
    (ComponentSet.reevaluate_ok_iff laptop services ⟨20⟩).mp ok _ member' _ malformed'
  have refused_profile := Outcome.exists_error fun ok =>
    ((Profile.reevaluate_ok_iff laptop p ⟨20⟩).mp ok).1 _ member' _ malformed'
  have raised {e : MergeError} {after : List (Handle Package)}
      (stopped : Stopped (Handle.Evaluated laptop) (Handle.Halted e) editors.packages.handles
        after) : after.map (·.item.priority) = [1, 1, 0, 0, 0] := by
    rw [stored] at stopped
    exact Handle.priorities_of_stopped weighed malformed stopped
  have raised' {e : MergeError} {after : List (Handle Resource)}
      (stopped : Stopped (Handle.Evaluated laptop) (Handle.Halted e) services.handles after) :
      after.map (·.item.priority) = [1, 1, 0, 0, 0] := by
    rw [stored'] at stopped
    exact Handle.priorities_of_stopped weighed' malformed' stopped
  refine ⟨stored, stored', ?_, ?_, ?_, ?_⟩
  · obtain ⟨e, failed⟩ := refused_table
    have halted := table editors.packages laptop ⟨20⟩ e failed
    exact ⟨e, failed, halted, raised halted.handles⟩
  · obtain ⟨e, failed⟩ := refused_set
    have halted := packages editors laptop ⟨20⟩ e failed
    exact ⟨e, failed, halted, raised (ItemTable.Halted.handles halted)⟩
  · obtain ⟨e, failed⟩ := refused_components
    have halted := components services laptop ⟨20⟩ e failed
    exact ⟨e, failed, halted, raised' halted.handles⟩
  · obtain ⟨e, failed⟩ := refused_profile
    exact ⟨e, failed, profile p laptop ⟨20⟩ e failed⟩

/-- An evaluation that fails at the second package of a chain has changed the first one by then, and
in the profile around it the components have adopted the new contexts. -/
theorem failed_evaluation_leaves_changes :
    let laptop : ContextSet := ⟨⟨[("laptop", 1)], by decide⟩⟩
    let vim (cell : Cell) (arch context : String) : Handle Package :=
      ⟨cell, cell + 1, { name := "vim", arch := some arch, context }⟩
    let port : Handle Resource := ⟨4, 5, { name := "port", value := "22", context := "laptop" }⟩
    let set : PackageSet := ⟨{
      table := .withBuckets 1, rules := .standard, bucket := .name, scope := .nameArch }⟩
    let one := (PackageSet.merge (vim 0 "x86_64" "laptop") set ⟨6⟩).state
    let both := (PackageSet.merge (vim 2 "aarch64" "$") one ⟨6⟩).state
    let ssh := (ComponentSet.mergeResource "ssh" port {} ⟨6⟩).state
    let failed := PackageSet.reevaluate laptop both ⟨6⟩
    let failed' := Profile.reevaluate laptop ⟨ssh, both⟩ ⟨6⟩
    both.Reachable ∧ both.packages.handles.map (·.item.priority) = [0, 0] ∧
      (∃ e, failed.result = .error e) ∧
      failed.state.packages.handles.map (·.item.priority) = [1, 0] ∧
      ssh.Reachable ∧ ssh.contexts = none ∧
      ssh.table.slots.map (·.resources.contexts) = [none] ∧
      (∃ e, failed'.result = .error e) ∧ failed'.state.components.contexts = some laptop ∧
      ∀ c ∈ failed'.state.components.table.slots, c.resources.contexts = some laptop := by
  intro laptop vim port set one both ssh failed failed'
  have empty : set.Reachable := .empty .standard .name .nameArch none {} 1
  have reachable : both.Reachable :=
    (empty.merge (vim 0 "x86_64" "laptop")).merge (vim 2 "aarch64" "$")
  have reachable' : ssh.Reachable :=
    .mergeResource "ssh" port ⟨6⟩ (.empty .standard .nameArchContext none {} _)
  have stray : Context.Expr.parse "$" = .error _ := Context.Expr.parse_of_stray rfl (by decide)
  have enabled : Context.Expr.parse "laptop" = .ok _ :=
    Context.Expr.parse_of_isValidName (by decide)
  have stored : both.packages.handles = [vim 0 "x86_64" "laptop", vim 2 "aarch64" "$"] := by
    decide +kernel
  have member : vim 2 "aarch64" "$" ∈ both.packages.handles := by rw [stored]; simp
  have malformed : (vim 2 "aarch64" "$").Malformed (.item _) := ⟨_, stray, rfl⟩
  have in_set : ∃ e, failed.result = .error e := Outcome.exists_error fun ok =>
    (PackageSet.reevaluate_ok_iff laptop both ⟨6⟩).mp ok _ member _ malformed
  have in_profile : ∃ e, failed'.result = .error e := Outcome.exists_error fun ok =>
    ((Profile.reevaluate_ok_iff laptop ⟨ssh, both⟩ ⟨6⟩).mp ok).2 _ member _ malformed
  have priorities : failed.state.packages.handles.map (·.item.priority) = [1, 0] := by
    obtain ⟨e, error⟩ := in_set
    have halted := ItemTable.Halted.handles
      ((PackageSet.evaluates_reevaluate laptop both ⟨6⟩).of_error error)
    rw [stored] at halted
    have weighed : ∀ h ∈ [vim 0 "x86_64" "laptop"], laptop.evaluateItem h.item = .ok 1 :=
      List.forall_mem_singleton.mpr (laptop.evaluate_of_isValidName (by decide))
    exact Handle.priorities_of_stopped weighed malformed halted
  have adopted : ssh.Adopted laptop failed'.state.components := by
    have sound : ∀ h ∈ ssh.handles, ∀ e, ¬ h.Malformed e := by
      rintro h member e ⟨cause, refused, -⟩
      have held : ssh.handles = [port] := by decide +kernel
      rw [held, List.mem_singleton] at member
      subst member
      exact absurd (enabled.symm.trans refused) nofun
    obtain ⟨n, ok⟩ := (ComponentSet.reevaluate_ok_iff laptop ssh ⟨6⟩).mpr sound
    rw [Profile.components_reevaluate]
    exact ((ComponentSet.evaluates_reevaluate laptop ssh ⟨6⟩).of_ok ok).1
  exact ⟨reachable, by rw [stored]; rfl, in_set, priorities, reachable', rfl, by decide +kernel,
    in_profile, congrArg ComponentSet.contexts adopted.settings, adopted.contexts⟩

end HostProfile
