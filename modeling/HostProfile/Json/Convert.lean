import HostProfile.Json.Basic

/-!
# Values as JSON

How values of other types are written as JSON and read back. The fields of a record are members of
an object: a member that the record does not name is left alone, and a field may have a value that
stands for a missing member.
-/

namespace HostProfile

/-- Values with a JSON form. -/
class ToJson (α : Type) where
  toJson : α → Json

/-- Values that can be read from JSON. -/
class OfJson (α : Type) where
  ofJson? : Json → Option α

export ToJson (toJson)

export OfJson (ofJson?)

instance : ToJson Json := ⟨id⟩

instance : ToJson Unit := ⟨fun _ => .null⟩

instance : ToJson Bool := ⟨.bool⟩

instance : ToJson Nat := ⟨fun n => .int n⟩

instance : ToJson Int32 := ⟨fun n => .int n.toInt⟩

instance : ToJson Char := ⟨fun c => .str c.toString⟩

instance : ToJson String := ⟨.str⟩

instance : ToJson Ordering where
  toJson
    | .lt => .str "lt"
    | .eq => .str "eq"
    | .gt => .str "gt"

instance : OfJson Json := ⟨some⟩

instance : OfJson Bool where
  ofJson?
    | .bool b => some b
    | _ => none

instance : OfJson Nat where
  ofJson?
    | .int n => n.toNat?
    | _ => none

instance : OfJson Int where
  ofJson?
    | .int n => some n
    | _ => none

/-- Only numbers in the range of 32-bit integers can be read. -/
instance : OfJson Int32 where
  ofJson?
    | .int n =>
      if Int32.minValue.toInt ≤ n ∧ n ≤ Int32.maxValue.toInt then some (Int32.ofInt n) else none
    | _ => none

/-- A character is a string of one character. -/
instance : OfJson Char where
  ofJson?
    | .str s =>
      match s.toList with
      | [c] => some c
      | _ => none
    | _ => none

instance : OfJson String where
  ofJson?
    | .str s => some s
    | _ => none

section

variable {α β : Type}

instance [ToJson α] : ToJson (Option α) where
  toJson
    | some a => toJson a
    | none => .null

instance [ToJson α] : ToJson (List α) := ⟨fun l => .arr (l.map toJson)⟩

instance [ToJson α] [ToJson β] : ToJson (α × β) := ⟨fun (a, b) => .arr [toJson a, toJson b]⟩

instance [OfJson α] : OfJson (List α) where
  ofJson?
    | .arr elements => elements.mapM ofJson?
    | _ => none

instance [OfJson α] [OfJson β] : OfJson (α × β) where
  ofJson?
    | .arr [a, b] => do return (← ofJson? a, ← ofJson? b)
    | _ => none

variable [OfJson α]

/-- The member of the name. -/
def Json.required (name : String) (object : Json) : Option α := object.member? name >>= ofJson?

/-- The member of the name, or `default` where there is none. -/
def Json.withDefault (name : String) (default : α) (object : Json) : Option α :=
  match object.member? name with
  | some v => ofJson? v
  | none => some default

/-- The member of the name, where there is one and it is not null. -/
def Json.optional (name : String) (object : Json) : Option (Option α) :=
  match object.member? name with
  | some .null | none => some none
  | some v => some <$> ofJson? v

end

end HostProfile
