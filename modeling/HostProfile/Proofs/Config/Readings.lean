import HostProfile.Proofs.Config.Layering
import Mathlib.Data.Option.Basic

/-!
# One text read as settings and as a fragment

Settings and fragments share one format. A document whose groups are tables is read as a fragment
exactly when it is read as settings and has no unknown names, and the settings are then the default
ones with the fragment on top. So it does not matter which way the text of a file is read.
-/

namespace HostProfile

namespace Toml

variable {α : Type} [OfToml α] {entries : List (String × Toml)} {place : Nat} {name : String}
  {default : α}

/-- The default stands for a part that is missing, and not for one that cannot be read. -/
theorem withDefault_eq (record : Toml) :
    record.withDefault place name default =
      (record.optional place name).map (·.getD default) := by
  rw [withDefault, optional]
  cases record.part? place name with
  | none => rfl
  | some v => simp [Function.comp_def]

theorem withDefault_of_missing (missing : entries.lookup name = none) :
    (table entries).withDefault place name default = some default := by
  rw [withDefault, part?, missing]

theorem withDefault_of_lookup {v : Toml} (here : entries.lookup name = some v) :
    (table entries).withDefault place name default = ofToml? v := by
  rw [withDefault, part?, here]

theorem fits_table_iff {names : List String} :
    (table entries).fits names = true ↔ ∀ e ∈ entries, e.1 ∈ names := by
  simp [fits]

end Toml

namespace Config

/-- The parts of a record are completed one after another. -/
theorem map_bind_map {α β φ σ : Type} {part : Option α} {complete : α → β} {fill : φ → σ}
    {rest : α → Option φ} {rest' : β → Option σ}
    (same : ∀ a, (rest a).map fill = rest' (complete a)) :
    (part >>= rest).map fill = part.map complete >>= rest' := by
  cases part with
  | none => rfl
  | some a => exact same a

variable {φ σ : Type} [OfToml φ] [OfToml σ] {names : List String} {fill : φ → σ}
  {entries : List (String × Toml)} {s : Settings} {f : Fragment} {path text : String}

/-! ## Groups of settings -/

/-- A table is read as a fragment exactly when it is read as settings and has none but the given
names, and `fill` makes these settings of the fragment. -/
def ReadAlike (names : List String) (fill : φ → σ) : Prop :=
  ∀ entries s, (∃ f : φ, ofToml? (.table entries) = some f ∧ fill f = s) ↔
    ofToml? (.table entries) = some s ∧ ∀ e ∈ entries, e.1 ∈ names

/-- A fragment refuses other names first. What it reads then has to be completed to the settings. -/
theorem readAlike_of_fits {read : List (String × Toml) → Option φ}
    (strict : ∀ entries, ofToml? (.table entries) =
      (guard ((Toml.table entries).fits names = true) >>= fun _ => read entries))
    (same : ∀ entries, (read entries).map fill = ofToml? (.table entries)) :
    ReadAlike names fill := by
  intro entries s
  rw [← Option.map_eq_some_iff, ← same, ← Toml.fits_table_iff, strict]
  cases (Toml.table entries).fits names <;> simp

theorem readAlike_merge :
    ReadAlike mergeNames fun f : MergeFragment => (({} : Settings).apply { merge := f }).merge := by
  refine readAlike_of_fits (fun _ => rfl) fun entries => ?_
  simp only [ofToml?, Toml.isRecord, guard_true, pure_bind, Toml.withDefault_eq]
  exact map_bind_map fun resources => map_bind_map fun packages => rfl

theorem readAlike_keys :
    ReadAlike keyNames fun f : KeyFragment => (({} : Settings).apply { keys := f }).keys := by
  refine readAlike_of_fits (fun _ => rfl) fun entries => ?_
  simp only [ofToml?, Toml.isRecord, guard_true, pure_bind, Toml.withDefault_eq]
  exact map_bind_map fun package => map_bind_map fun resource => map_bind_map fun bucket => rfl

theorem readAlike_output :
    ReadAlike outputNames fun f : OutputFragment =>
      (({} : Settings).apply { output := f }).output := by
  refine readAlike_of_fits (fun _ => rfl) fun entries => ?_
  simp only [ofToml?, Toml.isRecord, guard_true, pure_bind, Toml.withDefault_eq]
  exact map_bind_map fun insensitive => map_bind_map fun all => rfl

/-- The group, where the document has it, has none but the given names. -/
def OnlyHas (entries : List (String × Toml)) (group : String) (names : List String) : Prop :=
  ∀ inner, entries.lookup group = some (.table inner) → ∀ e ∈ inner, e.1 ∈ names

/-- A group that is missing has its default in both readings. -/
theorem ReadAlike.part_iff (alike : ReadAlike names fill) (place : Nat) {group : String}
    (default : φ) (is_table : ∀ v, entries.lookup group = some v → ∃ inner, v = .table inner)
    {s : σ} :
    (∃ f, (Toml.table entries).withDefault place group default = some f ∧ fill f = s) ↔
      (Toml.table entries).withDefault place group (fill default) = some s ∧
        OnlyHas entries group names := by
  cases here : entries.lookup group with
  | none =>
      have nothing : OnlyHas entries group names := fun inner found => absurd (here ▸ found) nofun
      simp [Toml.withDefault_of_missing here, nothing]
  | some v =>
      obtain ⟨inner, rfl⟩ := is_table v here
      have only_has : OnlyHas entries group names ↔ ∀ e ∈ inner, e.1 ∈ names := by
        simp [OnlyHas, here]
      simp only [Toml.withDefault_of_lookup here, only_has]
      exact alike inner s

/-! ## Documents -/

theorem ofToml?_settings_iff :
    ofToml? (.table entries) = some s ↔
      (Toml.table entries).withDefault 0 "merge" {} = some s.merge ∧
      (Toml.table entries).withDefault 1 "keys" {} = some s.keys ∧
      (Toml.table entries).withDefault 2 "contexts" {} = some s.contexts ∧
      (Toml.table entries).withDefault 3 "output" {} = some s.output := by
  obtain ⟨merge, keys, contexts, output⟩ := s
  simp [ofToml?, Toml.isRecord, Option.bind_eq_some_iff]

theorem ofToml?_fragment_iff :
    ofToml? (.table entries) = some f ↔
      (∀ e ∈ entries, e.1 ∈ groupNames) ∧
      (Toml.table entries).withDefault 0 "merge" {} = some f.merge ∧
      (Toml.table entries).withDefault 1 "keys" {} = some f.keys ∧
      (Toml.table entries).withDefault 2 "contexts" {} = some f.contexts ∧
      (Toml.table entries).withDefault 3 "output" {} = some f.output := by
  obtain ⟨merge, keys, contexts, output⟩ := f
  rw [← Toml.fits_table_iff]
  simp [ofToml?, Option.bind_eq_some_iff, Option.guard_eq_some']

theorem contexts_apply_default (f : Fragment) :
    (({} : Settings).apply f).contexts = f.contexts :=
  OrderedMap.ofList_entries f.contexts

/-- Every group of settings that the document has is a table. -/
def GroupsAreTables (entries : List (String × Toml)) : Prop :=
  ∀ group ∈ groupNames, ∀ v, entries.lookup group = some v → ∃ inner, v = .table inner

/-- No group of the document is unknown, and no setting in a group. The names of contexts are
free. -/
structure OnlyKnown (entries : List (String × Toml)) : Prop where
  groups : ∀ e ∈ entries, e.1 ∈ groupNames
  merge : OnlyHas entries "merge" mergeNames
  keys : OnlyHas entries "keys" keyNames
  output : OnlyHas entries "output" outputNames

/-- The settings that are read from a document of known names are the default ones with the
fragment on top that is read from it. -/
theorem exists_fragment_iff (tables : GroupsAreTables entries) :
    (∃ f : Fragment, ofToml? (.table entries) = some f ∧ ({} : Settings).apply f = s) ↔
      ofToml? (.table entries) = some s ∧ OnlyKnown entries := by
  have merge_iff {m} := readAlike_merge.part_iff 0 {} (tables "merge" (by decide)) (s := m)
  have keys_iff {k} := readAlike_keys.part_iff 1 {} (tables "keys" (by decide)) (s := k)
  have output_iff {o} := readAlike_output.part_iff 3 {} (tables "output" (by decide)) (s := o)
  -- The contexts have one reader, so that only the three other groups are completed.
  constructor
  · rintro ⟨f, read, rfl⟩
    obtain ⟨groups, merge, keys, contexts, output⟩ := ofToml?_fragment_iff.mp read
    obtain ⟨merge', known_merge⟩ := merge_iff.mp ⟨_, merge, rfl⟩
    obtain ⟨keys', known_keys⟩ := keys_iff.mp ⟨_, keys, rfl⟩
    obtain ⟨output', known_output⟩ := output_iff.mp ⟨_, output, rfl⟩
    rw [← contexts_apply_default f] at contexts
    exact ⟨ofToml?_settings_iff.mpr ⟨merge', keys', contexts, output'⟩,
      groups, known_merge, known_keys, known_output⟩
  · rintro ⟨read, known⟩
    obtain ⟨merge, keys, contexts, output⟩ := ofToml?_settings_iff.mp read
    obtain ⟨merge', read_merge, filled_merge⟩ := merge_iff.mpr ⟨merge, known.merge⟩
    obtain ⟨keys', read_keys, filled_keys⟩ := keys_iff.mpr ⟨keys, known.keys⟩
    obtain ⟨output', read_output, filled_output⟩ := output_iff.mpr ⟨output, known.output⟩
    let f : Fragment := ⟨merge', keys', s.contexts, output'⟩
    have read_fragment : ofToml? (.table entries) = some f :=
      ofToml?_fragment_iff.mpr ⟨known.groups, read_merge, read_keys, contexts, read_output⟩
    exact ⟨f, read_fragment,
      Settings.ext filled_merge filled_keys (contexts_apply_default f) filled_output⟩

/-! ## Texts -/

theorem read_eq_ok_iff {α : Type} [OfToml α] {a : α} {document : Toml}
    (parsed : Toml.parse? text = some document) :
    read path text = .ok a ↔ ofToml? document = some a := by
  rw [read, parsed, Option.bind_eq_bind, Option.bind_some]
  cases (ofToml? document : Option α) <;> simp

/-- Where a text is read as a fragment, it is read as the default settings with that fragment on
top, and the contexts are those of the fragment in the same order. Where it is read as settings, it
is read as a fragment exactly when it has no unknown names. -/
theorem readings_agree (parsed : Toml.parse? text = some (.table entries))
    (tables : GroupsAreTables entries) :
    (∀ f, Fragment.parse path text = .ok f →
      Settings.parse path text = .ok (({} : Settings).apply f) ∧
        (({} : Settings).apply f).contexts = f.contexts) ∧
    ((∃ f, Fragment.parse path text = .ok f) ↔
      (∃ s, Settings.parse path text = .ok s) ∧ OnlyKnown entries) := by
  have settings_iff {s} : Settings.parse path text = .ok s ↔ ofToml? (.table entries) = some s :=
    read_eq_ok_iff parsed
  have fragment_iff {f} : Fragment.parse path text = .ok f ↔ ofToml? (.table entries) = some f :=
    read_eq_ok_iff parsed
  simp only [settings_iff, fragment_iff]
  refine ⟨fun f read => ⟨?applied, contexts_apply_default f⟩, ?accepts, ?accepted⟩
  case applied => exact ((exists_fragment_iff tables).mp ⟨f, read, rfl⟩).1
  case accepts =>
    rintro ⟨f, read⟩
    obtain ⟨read_settings, known⟩ := (exists_fragment_iff tables).mp ⟨f, read, rfl⟩
    exact ⟨⟨_, read_settings⟩, known⟩
  case accepted =>
    rintro ⟨⟨s, read⟩, known⟩
    obtain ⟨f, read_fragment, -⟩ := (exists_fragment_iff tables).mpr ⟨read, known⟩
    exact ⟨f, read_fragment⟩

theorem groupsAreTables_of_tables (tables : List (String × List (String × Toml))) :
    GroupsAreTables (tables.map fun t => (t.1, .table t.2)) := by
  intro group _ v here
  obtain ⟨before, after, split, -⟩ := List.lookup_eq_some_iff.mp here
  have member : (group, v) ∈ tables.map fun t => (t.1, Toml.table t.2) := by
    rw [split]
    exact List.mem_append_right before List.mem_cons_self
  obtain ⟨t, -, same⟩ := List.mem_map.mp member
  exact ⟨t.2, (congrArg Prod.snd same).symm⟩

/-- A text of known names is read both ways. With one more name it is still read as settings, and
no longer as a fragment. -/
theorem readings_agree_until_unknown :
    let written := [("contexts", [("web", "2"), ("db", "5")]),
      ("merge", [("packages", Toml.spellTexts ["keep-all"])])]
    let more := written ++ [("keys", [("bucket_by_arch", "true"), ("bucket_by_size", "false")])]
    let text (written : List (String × List (String × String))) : String :=
      "\n".intercalate (written.map fun w => Toml.spellTable w.1 w.2)
    let tables := [("contexts", [("web", .int 2), ("db", .int 5)]),
      ("merge", [("packages", .arr (["keep-all"].map .str))])]
    let more_tables := tables ++ [("keys", [("bucket_by_arch", .bool true),
      ("bucket_by_size", .bool false)])]
    let entries (tables : List (String × List (String × Toml))) : List (String × Toml) :=
      tables.map fun t => (t.1, .table t.2)
    let f : Fragment :=
      { merge := { packages := some ["keep-all"] }, contexts := .ofList [("web", 2), ("db", 5)] }
    Toml.parse? (text written) = some (.table (entries tables)) ∧
      GroupsAreTables (entries tables) ∧ OnlyKnown (entries tables) ∧
      Fragment.parse "host" (text written) = .ok f ∧
      Settings.parse "host" (text written) = .ok (({} : Settings).apply f) ∧
      (({} : Settings).apply f).contexts.names = ["web", "db"] ∧
      Toml.parse? (text more) = some (.table (entries more_tables)) ∧
      GroupsAreTables (entries more_tables) ∧ ¬ OnlyKnown (entries more_tables) ∧
      (∃ s, Settings.parse "host" (text more) = .ok s ∧ s.keys.bucketByArch = true) ∧
      ¬ ∃ f, Fragment.parse "host" (text more) = .ok f := by
  intro written more text tables more_tables entries f
  have describes : List.Forall₂ Toml.Describes written tables := by
    refine .cons ⟨rfl, ?_⟩ (.cons ⟨rfl, .cons ⟨rfl, Toml.denotes_texts ["keep-all"]⟩ .nil⟩ .nil)
    exact .cons ⟨rfl, Toml.denotes_int (by decide : Toml.inRange 2 = true)⟩
      (.cons ⟨rfl, Toml.denotes_int (by decide : Toml.inRange 5 = true)⟩ .nil)
  have describes_more : List.Forall₂ Toml.Describes more more_tables := by
    refine List.rel_append describes (.cons ⟨rfl, ?_⟩ .nil)
    exact .cons ⟨rfl, Toml.denotes_bool true⟩ (.cons ⟨rfl, Toml.denotes_bool false⟩ .nil)
  have parsed := Toml.parse?_tables describes (by decide) (by decide)
  have parsed_more := Toml.parse?_tables describes_more (by decide) (by decide)
  have is_tables := groupsAreTables_of_tables tables
  have is_tables_more := groupsAreTables_of_tables more_tables
  have agree := @readings_agree (entries tables) "host" (text written) parsed is_tables
  have agree_more :=
    @readings_agree (entries more_tables) "host" (text more) parsed_more is_tables_more
  have read : Fragment.parse "host" (text written) = .ok f := (read_eq_ok_iff parsed).mpr rfl
  have known : OnlyKnown (entries tables) := (agree.2.mp ⟨f, read⟩).2
  have unknown : ¬ OnlyKnown (entries more_tables) := fun known =>
    absurd (known.keys _ rfl ("bucket_by_size", .bool false) (by simp)) (by decide)
  refine ⟨parsed, is_tables, known, read, (agree.1 f read).1, by decide, parsed_more,
    is_tables_more, unknown, ⟨_, (read_eq_ok_iff parsed_more).mpr rfl, rfl⟩, ?_⟩
  exact fun accepted => unknown (agree_more.2.mp accepted).2

end Config

end HostProfile
