import HostProfile.Proofs.Json.Compact
import HostProfile.Proofs.Json.Lawful
import HostProfile.Proofs.Signature

/-!
# What stored forms tell

An item is read back from its stored form with all its fields, those that were left out included,
and from the text of that form. So the text that is digested determines the active contents: two
containers whose texts agree list equal items in the canonical order.
-/

namespace HostProfile

/-! ## Items -/

/-- The fields of a package in its stored form; those without a value are left out. -/
def Package.storedFields (p : Package) : List (String × Option Json) :=
  [("name", some (toJson p.name)), ("arch", p.arch.map toJson),
    ("version", some (toJson p.version)), ("release", p.release.map toJson),
    ("flags", if p.flags = [] then none else some (toJson p.flags)),
    ("prefix", p.mark.map toJson), ("context", some (toJson p.context)),
    ("derivation", some (toJson p.derivation)), ("priority", some (toJson p.priority))]

theorem Package.toJson_eq (p : Package) : toJson p = .obj (Json.present p.storedFields) := by
  cases p with
  | mk name arch version release flags mark context derivation priority =>
    cases arch <;> cases release <;> cases flags <;> cases mark <;> rfl

namespace LawfulJson

instance : LawfulJson Resource where
  exact_toJson r := .obj (by simp [exact_toJson])
  ofJson?_toJson r := by
    have name : (toJson r).required "name" = some r.name := Json.required_eq rfl
    have value : (toJson r).required "value" = some r.value := Json.required_eq rfl
    have valueType : (toJson r).withDefault "type" defaultType = some r.valueType :=
      Json.withDefault_eq rfl
    have context : (toJson r).withDefault "context" "" = some r.context := Json.withDefault_eq rfl
    have derivation : (toJson r).withDefault "derivation" {} = some r.derivation :=
      Json.withDefault_eq rfl
    have priority : (toJson r).withDefault "priority" 0 = some r.priority := Json.withDefault_eq rfl
    simp only [ofJson?, name, value, valueType, context, derivation, priority]
    rfl

instance : LawfulJson Package where
  exact_toJson p := by
    rw [p.toJson_eq]
    exact Json.exact_present (by simp [Package.storedFields, exact_toJson])
  ofJson?_toJson p := by
    have field {name : String} {value : Option Json} (listed : (name, value) ∈ p.storedFields) :
        (toJson p).member? name = value := by
      rw [p.toJson_eq]
      exact Json.member?_present (by simp [Package.storedFields]) listed
    have name : (toJson p).required "name" = some p.name :=
      Json.required_eq (field (by simp [Package.storedFields]))
    have arch : (toJson p).optional "arch" = some p.arch :=
      Json.optional_eq (field (by simp [Package.storedFields])) (fun _ => Json.str_ne_null _)
    have version : (toJson p).withDefault "version" "" = some p.version :=
      Json.withDefault_eq (field (by simp [Package.storedFields]))
    have release : (toJson p).optional "release" = some p.release :=
      Json.optional_eq (field (by simp [Package.storedFields])) (fun _ => Json.str_ne_null _)
    have flags : (toJson p).withDefault "flags" [] = some p.flags :=
      Json.withDefault_eq_of_omitted (field (by simp [Package.storedFields]))
    have mark : (toJson p).optional "prefix" = some p.mark :=
      Json.optional_eq (field (by simp [Package.storedFields])) (fun _ => Json.str_ne_null _)
    have context : (toJson p).withDefault "context" "" = some p.context :=
      Json.withDefault_eq (field (by simp [Package.storedFields]))
    have derivation : (toJson p).withDefault "derivation" {} = some p.derivation :=
      Json.withDefault_eq (field (by simp [Package.storedFields]))
    have priority : (toJson p).withDefault "priority" 0 = some p.priority :=
      Json.withDefault_eq (field (by simp [Package.storedFields]))
    simp only [ofJson?, name, arch, version, release, flags, mark, context, derivation, priority]
    rfl

end LawfulJson

/-! ## Contents -/

variable {T : Type} [Item T] [OfJson T] [LawfulJson T]

theorem ItemTable.contents_render_inj {t t' : ItemTable T} :
    t.contents.render = t'.contents.render ↔
      t.sortedItems .canonical = t'.sortedItems .canonical := by
  rw [t.contents_eq, t'.contents_eq, LawfulJson.render_toJson_inj]

theorem ComponentSet.contents_render_inj {s s' : ComponentSet} :
    s.contents.render = s'.contents.render ↔
      s.sortedItems .canonical = s'.sortedItems .canonical := by
  rw [s.contents_eq, s'.contents_eq, LawfulJson.render_toJson_inj]

/-- An item is read back as it was from the text of its stored form, and two containers are digested
as the same text exactly when their active contents in canonical order are equal. These texts are
compact, and a string in them has escapes for the quote, the backslash and the characters below
U+0020 only. -/
theorem stored_text_determines_contents :
    (∀ r : Resource, Json.parse? (toJson r).render >>= ofJson? = some r) ∧
    (∀ p : Package, Json.parse? (toJson p).render >>= ofJson? = some p) ∧
    (∀ t t' : ItemTable Resource, t.contents.render = t'.contents.render ↔
      t.sortedItems .canonical = t'.sortedItems .canonical) ∧
    (∀ t t' : ItemTable Package, t.contents.render = t'.contents.render ↔
      t.sortedItems .canonical = t'.sortedItems .canonical) ∧
    (∀ s s' : ComponentSet, s.contents.render = s'.contents.render ↔
      s.sortedItems .canonical = s'.sortedItems .canonical) ∧
    ((∀ r : Resource, (toJson r).IsCompact) ∧ (∀ p : Package, (toJson p).IsCompact) ∧
      (∀ t : ItemTable Resource, t.contents.IsCompact) ∧
      (∀ t : ItemTable Package, t.contents.IsCompact) ∧
      ∀ s : ComponentSet, s.contents.IsCompact) ∧
    ∀ c : Char, (Json.escape c = [c] ↔ c ≠ '"' ∧ c ≠ '\\' ∧ 0x20 ≤ c.toNat) ∧
      Json.escape c =
        match Json.letter? c with
        | some d => ['\\', d]
        | none => if c.toNat < 0x20 then '\\' :: 'u' :: Json.codeUnit c else [c] := by
  have compact {α : Type} [ToJson α] [OfJson α] [LawfulJson α] (a : α) : (toJson a).IsCompact :=
    (LawfulJson.exact_toJson a).isCompact
  have table {U : Type} [Item U] [OfJson U] [LawfulJson U] (t : ItemTable U) :
      t.contents.IsCompact := by
    rw [t.contents_eq]
    exact compact _
  have set (s : ComponentSet) : s.contents.IsCompact := by
    rw [s.contents_eq]
    exact compact _
  exact ⟨LawfulJson.parse?_toJson, LawfulJson.parse?_toJson,
    fun _ _ => ItemTable.contents_render_inj, fun _ _ => ItemTable.contents_render_inj,
    fun _ _ => ComponentSet.contents_render_inj, ⟨compact, compact, table, table, set⟩,
    fun c => ⟨Json.escape_eq_self_iff, Json.escape_eq c⟩⟩

end HostProfile
