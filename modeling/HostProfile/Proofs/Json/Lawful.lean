import HostProfile.Derivation
import HostProfile.Proofs.Except
import HostProfile.Proofs.Json.Value

/-!
# Values with a stored form

A lawful JSON form is read back as the value that it was written from, and so is its text. A field
of a record that is left out, because it has no value or its default, is restored.
-/

namespace HostProfile

/-- Values that are read back from their JSON form, which holds no number kept as its text. -/
class LawfulJson (α : Type) [ToJson α] [OfJson α] : Prop where
  exact_toJson (a : α) : (toJson a).Exact
  ofJson?_toJson (a : α) : ofJson? (toJson a) = some a

namespace LawfulJson

variable {α β : Type}

instance : LawfulJson String := ⟨fun s => .str s, fun _ => rfl⟩

instance : LawfulJson Char where
  exact_toJson c := .str c.toString
  ofJson?_toJson c := by simp [toJson, ofJson?]

instance : LawfulJson Int32 where
  exact_toJson n := .int n.toInt
  ofJson?_toJson n := by
    have range : Int32.minValue.toInt ≤ n.toInt ∧ n.toInt ≤ Int32.maxValue.toInt :=
      ⟨n.minValue_le_toInt, n.toInt_le⟩
    simp only [toJson, ofJson?]
    rw [if_pos range, Int32.ofInt_toInt]

variable [ToJson α] [OfJson α] [LawfulJson α] [ToJson β] [OfJson β] [LawfulJson β]

instance : LawfulJson (List α) where
  exact_toJson _ := .arr (List.forall_mem_map.mpr fun a _ => exact_toJson a)
  ofJson?_toJson as := mapM_map_of_inverse ofJson?_toJson as

instance : LawfulJson (α × β) where
  exact_toJson p := .arr (by simp [exact_toJson])
  ofJson?_toJson p := by simp [toJson, ofJson?, ofJson?_toJson]

instance : LawfulJson Derivation where
  exact_toJson d := exact_toJson d.sources
  ofJson?_toJson d := congrArg (Derivation.mk <$> ·) (ofJson?_toJson d.sources)

theorem parse?_toJson (a : α) : Json.parse? (toJson a).render >>= ofJson? = some a := by
  rw [Json.parse?_render (exact_toJson a)]
  exact ofJson?_toJson a

/-- Values of one stored text are equal. -/
theorem render_toJson_inj {a b : α} : (toJson a).render = (toJson b).render ↔ a = b := by
  refine ⟨fun text => ?_, fun eq => by rw [eq]⟩
  have read := parse?_toJson a
  rw [text, parse?_toJson b] at read
  exact (Option.some.inj read).symm

end LawfulJson

/-! ## Fields -/

namespace Json

/-- The members of the fields that have a value. -/
def present (fields : List (String × Option Json)) : List (String × Json) :=
  fields.filterMap fun field => field.2.map (field.1, ·)

theorem exact_present {fields : List (String × Option Json)}
    (exact : ∀ field ∈ fields, ∀ v ∈ field.2, v.Exact) : (obj (present fields)).Exact := by
  refine .obj fun member listed => ?_
  obtain ⟨field, mem, value⟩ := List.mem_filterMap.mp listed
  obtain ⟨v, found, rfl⟩ := Option.map_eq_some_iff.mp value
  exact exact field mem v found

theorem lookup_present_of_notMem {fields : List (String × Option Json)} {name : String}
    (missing : name ∉ fields.map (·.1)) : (present fields).reverse.lookup name = none := by
  refine List.lookup_eq_none_iff.mpr fun member listed => ?_
  obtain ⟨field, mem, value⟩ := List.mem_filterMap.mp (List.mem_reverse.mp listed)
  obtain ⟨v, -, rfl⟩ := Option.map_eq_some_iff.mp value
  rw [bne_iff_ne]
  rintro rfl
  exact missing (List.mem_map_of_mem mem)

/-- A field is looked up as it was, with a value or without one. -/
theorem member?_present {fields : List (String × Option Json)} {name : String} {value : Option Json}
    (distinct : (fields.map (·.1)).Nodup) (listed : (name, value) ∈ fields) :
    (obj (present fields)).member? name = value := by
  have head (field : String × Option Json) (rest : List (String × Option Json)) :
      (present (field :: rest)).reverse =
        (present rest).reverse ++ (field.2.map (field.1, ·)).toList := by
    cases value : field.2 <;> simp [present, value]
  rw [member?]
  induction fields with
  | nil => exact absurd listed List.not_mem_nil
  | cons field rest ih =>
      obtain ⟨fresh, distinct⟩ := List.nodup_cons.mp distinct
      rw [head, List.lookup_append]
      obtain rfl | behind := List.mem_cons.mp listed
      · rw [lookup_present_of_notMem fresh, Option.none_or]
        cases value <;> simp
      · have other : name ≠ field.1 := by
          rintro rfl
          exact fresh (List.mem_map_of_mem (f := (·.1)) behind)
        have differs : (name == field.1) = false := beq_eq_false_iff_ne.mpr other
        rw [ih distinct behind]
        cases value <;> cases field.2 <;> simp [List.lookup_cons, differs]

theorem str_ne_null (s : String) : str s ≠ null := by nofun

section

variable {α : Type} [ToJson α] [OfJson α] [LawfulJson α] {j : Json} {name : String} {a default : α}

theorem required_eq (member : j.member? name = some (toJson a)) : j.required name = some a := by
  rw [required, member]
  exact LawfulJson.ofJson?_toJson a

theorem withDefault_eq (member : j.member? name = some (toJson a)) :
    j.withDefault name default = some a := by
  rw [withDefault, member]
  exact LawfulJson.ofJson?_toJson a

/-- A field that is left out when it has its default is restored. -/
theorem withDefault_eq_of_omitted [DecidableEq α]
    (member : j.member? name = if a = default then none else some (toJson a)) :
    j.withDefault name default = some a := by
  by_cases omitted : a = default
  · rw [withDefault, member, if_pos omitted, omitted]
  · exact withDefault_eq (member.trans (if_neg omitted))

/-- A field that is left out when it has no value is restored, where no value of it is null. -/
theorem optional_eq {field : Option α} (member : j.member? name = field.map toJson)
    (not_null : ∀ a : α, toJson a ≠ .null) : j.optional name = some field := by
  cases field with
  | none => rw [optional, member, Option.map_none]
  | some a =>
      have read := LawfulJson.ofJson?_toJson a
      rw [optional, member, Option.map_some]
      split
      · next null => exact absurd (Option.some.inj null) (not_null a)
      · next missing => cases missing
      · next found =>
          cases found
          rw [read]
          rfl

end

end Json

end HostProfile
