import HostProfile.Config.Settings
import HostProfile.Proofs.Except
import HostProfile.Proofs.Item
import HostProfile.Proofs.OrderedMap

/-!
# Valid settings

Settings in order name known rules only, the scope of their packages is not coarser than the
buckets, and each of their contexts can be enabled. The rules that names put into force are looked
up without the blanks around the names, which known names do not have.
-/

namespace HostProfile

open Config

/-! ## Rules by name -/

namespace MergeRule

theorem trim_label (rule : MergeRule) : Text.trim rule.label = rule.label := by
  cases rule <;> decide

theorem ofLabel?_label (rule : MergeRule) : ofLabel? rule.label = some rule := by
  cases rule <;> decide

theorem ofLabel?_eq_some_iff {text : String} {rule : MergeRule} :
    ofLabel? text = some rule ↔ Text.trim text = rule.label := by
  constructor
  · intro found
    have test := List.find?_some found
    exact (beq_iff_eq.mp test).symm
  · intro same
    rw [← ofLabel?_label rule, ofLabel?, ofLabel?, trim_label, same]

theorem mem_knownRules_iff {name : String} :
    name ∈ knownRules ↔ ∃ rule : MergeRule, rule.label = name := by
  rw [knownRules, List.mem_map]
  exact exists_congr fun rule => and_iff_right (by cases rule <;> decide)

theorem isSome_ofLabel?_iff {text : String} :
    (ofLabel? text).isSome = true ↔ Text.trim text ∈ knownRules := by
  rw [Option.isSome_iff_exists, mem_knownRules_iff]
  exact exists_congr fun rule => ofLabel?_eq_some_iff.trans eq_comm

theorem trim_of_known {name : String} (known : name ∈ knownRules) : Text.trim name = name := by
  obtain ⟨rule, rfl⟩ := mem_knownRules_iff.mp known
  exact rule.trim_label

theorem trim_mem_knownRules {name : String} (known : name ∈ knownRules) :
    Text.trim name ∈ knownRules := by
  rwa [trim_of_known known]

end MergeRule

namespace MergeRules

/-- The rules in force are those of the names, and no other flag is set. -/
structure IsUnion (names : List String) (rules : MergeRules) : Prop where
  has_iff (rule : MergeRule) : rules.has rule = true ↔ rule.label ∈ names
  unknown : rules.unknown = 0

/-- The rules with that of a name in force, if the name is one of a rule. -/
def put (rules : MergeRules) (name : String) : MergeRules :=
  match MergeRule.ofLabel? name with
  | some rule => rules.add rule
  | Option.none => rules

theorem has_add {rules : MergeRules} {added rule : MergeRule} :
    (rules.add added).has rule = true ↔ added = rule ∨ rules.has rule = true := by
  cases added <;> cases rule <;> simp [add, has]

theorem has_put {rules : MergeRules} {name : String} {rule : MergeRule} :
    (rules.put name).has rule = true ↔ Text.trim name = rule.label ∨ rules.has rule = true := by
  rw [put, ← MergeRule.ofLabel?_eq_some_iff]
  cases MergeRule.ofLabel? name with
  | none => simp
  | some added => simp [has_add]

theorem unknown_put (rules : MergeRules) (name : String) :
    (rules.put name).unknown = rules.unknown := by
  unfold put
  split
  · next rule _ => cases rule <;> rfl
  · rfl

theorem has_foldl_put {names : List String} {rules : MergeRules} {rule : MergeRule} :
    (names.foldl put rules).has rule = true ↔
      rule.label ∈ names.map Text.trim ∨ rules.has rule = true := by
  induction names generalizing rules with
  | nil => simp
  | cons name names ih =>
      rw [List.foldl_cons, ih, has_put, or_left_comm, List.map_cons, List.mem_cons, or_assoc,
        @eq_comm _ rule.label]

theorem isUnion_foldl_put (names : List String) :
    IsUnion (names.map Text.trim) (names.foldl put none) where
  has_iff rule := by
    have nothing : none.has rule = false := by cases rule <;> rfl
    rw [has_foldl_put, nothing]
    simp
  unknown := List.foldlRecOn names put (motive := fun rules => rules.unknown = 0) rfl
    fun rules same name _ => (unknown_put rules name).trans same

theorem isUnion_of_known {names : List String} (known : ∀ name ∈ names, name ∈ knownRules) :
    IsUnion names (names.foldl put none) := by
  have same : names.map Text.trim = names :=
    (List.map_congr_left fun name member => MergeRule.trim_of_known (known name member)).trans
      (List.map_id names)
  have union := isUnion_foldl_put names
  rwa [same] at union

theorem ofNames_step (rules : MergeRules) (name : String) :
    (match MergeRule.ofLabel? name with
      | some rule => .ok (rules.add rule)
      | Option.none => .error (.unknownRule name) : Except Error MergeRules) =
      if (MergeRule.ofLabel? name).isSome then .ok (rules.put name)
      else .error (.unknownRule name) := by
  rw [put]
  cases MergeRule.ofLabel? name <;> rfl

theorem ofNames_eq_ok_iff {names : List String} {rules : MergeRules} :
    ofNames names = .ok rules ↔
      (∀ name ∈ names, Text.trim name ∈ knownRules) ∧ names.foldl put none = rules := by
  simp only [← MergeRule.isSome_ofLabel?_iff]
  exact foldlM_eq_ok_iff ofNames_step

theorem exists_of_ofNames_eq_error {names : List String} {e : Error}
    (failed : ofNames names = .error e) :
    ∃ name ∈ names, Text.trim name ∉ knownRules ∧ e = .unknownRule name := by
  obtain ⟨name, member, unknown, rfl⟩ := exists_of_foldlM_eq_error ofNames_step failed
  refine ⟨name, member, fun known => ?_, rfl⟩
  exact absurd (MergeRule.isSome_ofLabel?_iff.mpr known ▸ unknown) nofun

/-- Known names without that of `keepAll` do not put it into force. -/
theorem keepAll_ofNames {names : List String} {rules : MergeRules}
    (known : ∀ name ∈ names, name ∈ knownRules) (one : "keep-all" ∉ names)
    (ok : ofNames names = .ok rules) : rules.keepAll = false := by
  obtain ⟨-, rfl⟩ := ofNames_eq_ok_iff.mp ok
  refine Bool.eq_false_iff.mpr fun keeps => one ?_
  exact ((isUnion_of_known known).has_iff .keepAll).mp keeps

end MergeRules

/-! ## Contexts -/

namespace ContextSet

/-- Whether a context can be enabled with its priority. -/
def admits (c : String × Int32) : Bool := Context.isValidName c.1 && decide (0 < c.2)

/-- Why a context cannot be enabled. -/
def refusal (c : String × Int32) : ItemError :=
  if Context.isValidName c.1 then .contextPriority c.1 c.2 else .contextName c.1

theorem enable_eq (set : ContextSet) (c : String × Int32) :
    set.enable c.1 c.2 =
      if admits c then .ok ⟨set.priorities.insert c.1 c.2⟩ else .error (refusal c) := by
  unfold enable admits refusal
  cases Context.isValidName c.1 with
  | false => rfl
  | true =>
      by_cases low : c.2 ≤ 0
      · simp [low, Int32.not_lt.mpr low]
      · simp [low, Int32.not_le.mp low]

theorem foldl_insert_entries (m : OrderedMap Int32) :
    m.entries.foldl (fun set c => ⟨set.priorities.insert c.1 c.2⟩) ContextSet.empty = ⟨m⟩ :=
  calc m.entries.foldl (fun set c => ⟨set.priorities.insert c.1 c.2⟩) ContextSet.empty
    _ = ⟨OrderedMap.ofList m.entries⟩ := List.foldl_hom ContextSet.mk fun _ _ => rfl
    _ = ⟨m⟩ := by rw [OrderedMap.ofList_entries]

end ContextSet

namespace Config.Settings

variable {s : Settings}

/-- Contexts that can be enabled are enabled as they stand, in their order. -/
theorem contextSet_eq_ok_iff {set : ContextSet} :
    s.contextSet = .ok set ↔
      (∀ c ∈ s.contexts.entries, ContextSet.admits c = true) ∧ set = ⟨s.contexts⟩ := by
  rw [← ContextSet.foldl_insert_entries s.contexts, eq_comm (a := set)]
  refine Iff.trans ?_ (foldlM_eq_ok_iff ContextSet.enable_eq)
  rw [contextSet]
  change _ ↔ ContextSet.empty.enableAll s.contexts.entries = .ok set
  cases ContextSet.empty.enableAll s.contexts.entries <;> simp

theorem exists_contextSet_iff :
    (∃ set, s.contextSet = .ok set) ↔ ∀ c ∈ s.contexts.entries, ContextSet.admits c = true := by
  simp [contextSet_eq_ok_iff]

theorem exists_of_contextSet_eq_error {e : Error} (failed : s.contextSet = .error e) :
    ∃ c ∈ s.contexts.entries, ContextSet.admits c = false ∧
      e = .context (ContextSet.refusal c) := by
  rw [contextSet] at failed
  split at failed
  · cases failed
  · next enabling =>
    obtain ⟨c, member, refused, rfl⟩ := exists_of_foldlM_eq_error ContextSet.enable_eq enabling
    exact ⟨c, member, refused, (Except.error.inj failed).symm⟩

/-! ## Settings in order -/

/-- The scope that gives the bucket keys of packages. -/
def bucketScope (s : Settings) : KeyScope := if s.keys.bucketByArch then .nameArch else .name

/-- The rules are looked at first, then the keys, then the contexts. -/
theorem validate_eq (s : Settings) :
    s.validate =
      match (s.merge.resources ++ s.merge.packages).find? (!knownRules.contains ·) with
      | some name => .error (.unknownRule name)
      | none =>
        if s.keys.bucketByArch && s.keys.packageScope == .name then .error .bucketWithoutArch
        else s.contextSet.map fun _ => () := by
  unfold validate
  cases (s.merge.resources ++ s.merge.packages).find? (!knownRules.contains ·) with
  | some name => rfl
  | none =>
      cases s.keys.bucketByArch && s.keys.packageScope == .name with
      | true => rfl
      | false => cases s.contextSet <;> rfl

theorem validate_eq_ok_iff :
    s.validate = .ok () ↔
      (∀ name ∈ s.merge.resources ++ s.merge.packages, name ∈ knownRules) ∧
      ¬ (s.keys.bucketByArch = true ∧ s.keys.packageScope = .name) ∧
      ∀ c ∈ s.contexts.entries, ContextSet.admits c = true := by
  have usable : (s.contextSet.map fun _ => ()) = .ok () ↔ ∃ set, s.contextSet = .ok set := by
    cases s.contextSet <;> simp [Except.map]
  rw [← exists_contextSet_iff, ← usable, validate_eq]
  cases unknown : (s.merge.resources ++ s.merge.packages).find? (!knownRules.contains ·) with
  | some name =>
      have named := List.mem_of_find?_eq_some unknown
      have test := List.find?_some unknown
      refine ⟨nofun, fun ⟨known, _⟩ => ?_⟩
      simp [known name named] at test
  | none =>
      have known : ∀ name ∈ s.merge.resources ++ s.merge.packages, name ∈ knownRules :=
        fun name member => by simpa using List.find?_eq_none.mp unknown name member
      have coarse : s.keys.bucketByArch = true ∧ s.keys.packageScope = .name ↔
          (s.keys.bucketByArch && s.keys.packageScope == .name) = true := by simp
      rw [and_iff_right known, coarse]
      cases s.keys.bucketByArch && s.keys.packageScope == .name <;> simp

theorem known_of_validate (valid : s.validate = .ok ()) :
    ∀ name ∈ s.merge.resources ++ s.merge.packages, name ∈ knownRules :=
  (validate_eq_ok_iff.mp valid).1

/-- Packages that collide have one bucket key. -/
theorem coarser_of_validate (valid : s.validate = .ok ()) :
    s.bucketScope.parts ≤ s.keys.packageScope.parts := by
  obtain ⟨-, includes_arch, -⟩ := validate_eq_ok_iff.mp valid
  unfold bucketScope
  split
  · next byArch =>
    cases scope : s.keys.packageScope with
    | name => exact absurd ⟨byArch, scope⟩ includes_arch
    | nameArch => exact Nat.le_refl 2
    | nameArchContext => exact Nat.le_succ 2
  · exact KeyScope.one_le_parts _

end Config.Settings

end HostProfile
