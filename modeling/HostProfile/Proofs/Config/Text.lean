import HostProfile.Config.Text
import HostProfile.Proofs.Except
import HostProfile.Proofs.OrderedMap
import HostProfile.Proofs.Toml.Document

/-!
# Reading written settings

The text of settings is read as these settings, whatever the rules, the contexts and their names
are. The contexts stay in their order.
-/

namespace HostProfile

/-! ## Parts of settings -/

theorem ofToml?_texts (texts : List String) : ofToml? (.arr (texts.map .str)) = some texts :=
  mapM_map_of_inverse (f := ofToml?) (g := Toml.str) (fun _ => rfl) texts

theorem ofToml?_label (scope : KeyScope) : ofToml? (.str scope.label) = some scope := by
  cases scope <;> decide

theorem ofToml?_int32 (n : Int32) : ofToml? (.int n.toInt) = some n := by
  have range : Int32.minValue.toInt ≤ n.toInt ∧ n.toInt ≤ Int32.maxValue.toInt :=
    ⟨Int32.minValue_le_toInt n, Int32.toInt_le n⟩
  change (if _ then _ else _) = _
  rw [if_pos range, Int32.ofInt_toInt]

theorem inRange_toInt (n : Int32) : Toml.inRange n.toInt = true := by
  have low : -2147483648 ≤ n.toInt := Int32.minValue_le_toInt n
  have high : n.toInt ≤ 2147483647 := Int32.toInt_le n
  have least : Int64.minValue.toInt = -9223372036854775808 := rfl
  have greatest : Int64.maxValue.toInt = 9223372036854775807 := rfl
  simp only [Toml.inRange, Bool.and_eq_true, decide_eq_true_eq]
  omega

namespace Config

/-! ## Groups of settings -/

/-- The entries of the merge settings. -/
def mergeEntries (m : MergeSettings) : List (String × Toml) :=
  [("resources", .arr (m.resources.map .str)), ("packages", .arr (m.packages.map .str))]

/-- The entries of the key settings. -/
def keyEntries (k : KeySettings) : List (String × Toml) :=
  [("package_scope", .str k.packageScope.label), ("resource_scope", .str k.resourceScope.label),
    ("bucket_by_arch", .bool k.bucketByArch)]

/-- The entries of the contexts. -/
def contextEntries (m : OrderedMap Int32) : List (String × Toml) :=
  m.entries.map fun e => (e.1, .int e.2.toInt)

/-- The entries of the output settings. -/
def outputEntries (o : OutputSettings) : List (String × Toml) :=
  [("case_insensitive", .bool o.caseInsensitive), ("all_priorities", .bool o.allPriorities)]

theorem names_contextEntries (m : OrderedMap Int32) :
    (contextEntries m).map Prod.fst = m.entries.map Prod.fst := by
  rw [contextEntries, List.map_map]
  rfl

theorem ofToml?_merge (m : MergeSettings) : ofToml? (.table (mergeEntries m)) = some m := by
  change (ofToml? (Toml.arr (m.resources.map .str)) >>= fun resources =>
    ofToml? (Toml.arr (m.packages.map .str)) >>= fun packages =>
      pure ⟨resources, packages⟩) = some m
  rw [ofToml?_texts, ofToml?_texts]
  rfl

theorem ofToml?_keys (k : KeySettings) : ofToml? (.table (keyEntries k)) = some k := by
  change (ofToml? (Toml.str k.packageScope.label) >>= fun packages =>
    ofToml? (Toml.str k.resourceScope.label) >>= fun resources =>
      pure ⟨packages, resources, k.bucketByArch⟩) = some k
  rw [ofToml?_label, ofToml?_label]
  rfl

theorem ofToml?_contexts (m : OrderedMap Int32) : ofToml? (.table (contextEntries m)) = some m := by
  have inverse (e : String × Int32) :
      (do return (e.1, ← ofToml? (Toml.int e.2.toInt)) : Option (String × Int32)) = some e := by
    rw [ofToml?_int32]
    rfl
  change OrderedMap.ofList <$> _ = _
  rw [contextEntries, mapM_map_of_inverse inverse, Option.map_eq_map, Option.map_some,
    OrderedMap.ofList_entries]

theorem ofToml?_output (o : OutputSettings) : ofToml? (.table (outputEntries o)) = some o := rfl

namespace Settings

/-- The tables that the text describes. -/
def tables (s : Settings) : List (String × List (String × Toml)) :=
  [("merge", mergeEntries s.merge), ("keys", keyEntries s.keys),
    ("contexts", contextEntries s.contexts), ("output", outputEntries s.output)]

theorem nodup_tables (s : Settings) : ∀ t ∈ s.tables, (t.2.map Prod.fst).Nodup := by
  have merge : mergeNames.Nodup := by decide
  have keys : keyNames.Nodup := by decide
  have contexts : ((contextEntries s.contexts).map Prod.fst).Nodup := by
    rw [names_contextEntries]
    exact s.contexts.nodup
  have output : outputNames.Nodup := by decide
  simp only [tables, List.forall_mem_cons]
  exact ⟨merge, keys, contexts, output, List.forall_mem_nil _⟩

theorem ofToml?_tables (s : Settings) :
    ofToml? (.table (s.tables.map fun t => (t.1, .table t.2))) = some s := by
  change (ofToml? (Toml.table (mergeEntries s.merge)) >>= fun merge =>
    ofToml? (Toml.table (keyEntries s.keys)) >>= fun keys =>
      ofToml? (Toml.table (contextEntries s.contexts)) >>= fun contexts =>
        ofToml? (Toml.table (outputEntries s.output)) >>= fun output =>
          pure ⟨merge, keys, contexts, output⟩) = some s
  rw [ofToml?_merge, ofToml?_keys, ofToml?_contexts, ofToml?_output]
  rfl

/-! ## The text -/

/-- The tables of the text, with each value as written. -/
def writtenTables (s : Settings) : List (String × List (String × String)) :=
  [("merge", [
      ("resources", Toml.spellTexts s.merge.resources),
      ("packages", Toml.spellTexts s.merge.packages)]),
    ("keys", [
      ("package_scope", Toml.spellText s.keys.packageScope.label),
      ("resource_scope", Toml.spellText s.keys.resourceScope.label),
      ("bucket_by_arch", toString s.keys.bucketByArch)]),
    ("contexts", s.contexts.entries.map fun e => (e.1, toString e.2.toInt)),
    ("output", [
      ("case_insensitive", toString s.output.caseInsensitive),
      ("all_priorities", toString s.output.allPriorities)])]

theorem render_eq (s : Settings) :
    s.render = "\n".intercalate (s.writtenTables.map fun t => Toml.spellTable t.1 t.2) := rfl

theorem describes_tables (s : Settings) :
    List.Forall₂ Toml.Describes s.writtenTables s.tables := by
  refine .cons ⟨rfl, ?merge⟩ (.cons ⟨rfl, ?keys⟩
    (.cons ⟨rfl, ?contexts⟩ (.cons ⟨rfl, ?output⟩ .nil)))
  case merge =>
    exact .cons ⟨rfl, Toml.denotes_texts _⟩ (.cons ⟨rfl, Toml.denotes_texts _⟩ .nil)
  case keys =>
    exact .cons ⟨rfl, Toml.denotes_text _⟩ (.cons ⟨rfl, Toml.denotes_text _⟩
      (.cons ⟨rfl, Toml.denotes_bool _⟩ .nil))
  case contexts =>
    rw [contextEntries, List.forall₂_map_left_iff, List.forall₂_map_right_iff, List.forall₂_same]
    exact fun e _ => ⟨rfl, Toml.denotes_int (inRange_toInt e.2)⟩
  case output =>
    exact .cons ⟨rfl, Toml.denotes_bool _⟩ (.cons ⟨rfl, Toml.denotes_bool _⟩ .nil)

theorem parse?_render (s : Settings) :
    Toml.parse? s.render = some (.table (s.tables.map fun t => (t.1, .table t.2))) := by
  have names : s.tables.map Prod.fst = groupNames := rfl
  rw [render_eq]
  exact Toml.parse?_tables s.describes_tables (by rw [names]; decide) s.nodup_tables

/-- The text of settings is read as these settings, with the contexts in the same order. -/
theorem parse_rendered (s : Settings) (path : String) : parse path s.render = .ok s := by
  rw [parse, read, parse?_render, Option.bind_eq_bind, Option.bind_some, ofToml?_tables]

end Settings

end Config

end HostProfile
