import HostProfile.Toml.Basic
import HostProfile.OrderedMap
import HostProfile.Item

/-!
# Reading records

The parts of a record are found by name in a table, and by place in an array. A moment in time
counts as a table that has none of the names asked for.
-/

namespace HostProfile

/-- Values that can be read from TOML. -/
class OfToml (α : Type) where
  ofToml? : Toml → Option α

export OfToml (ofToml?)

instance : OfToml Bool where
  ofToml?
    | .bool b => some b
    | _ => none

/-- Only numbers in the range of 32-bit integers can be read. -/
instance : OfToml Int32 where
  ofToml?
    | .int n =>
      if Int32.minValue.toInt ≤ n ∧ n ≤ Int32.maxValue.toInt then some (Int32.ofInt n) else none
    | _ => none

instance : OfToml String where
  ofToml?
    | .str s => some s
    | _ => none

instance {α : Type} [OfToml α] : OfToml (List α) where
  ofToml?
    | .arr elements => elements.mapM ofToml?
    | _ => none

instance {α : Type} [OfToml α] : OfToml (OrderedMap α) where
  ofToml?
    | .table entries =>
      OrderedMap.ofList <$> entries.mapM fun (name, v) => do return (name, ← ofToml? v)
    | _ => none

/-- A scope is given by its name, or by a table in which the name stands alone for nothing. -/
instance : OfToml KeyScope where
  ofToml?
    | .str s => KeyScope.ofLabel? s
    | .table [(name, .table [])] | .table [(name, .arr [])] => KeyScope.ofLabel? name
    | _ => none

namespace Toml

/-- Whether the value can be read as a record. -/
def isRecord : Toml → Bool
  | table _ | arr _ | moment _ => true
  | _ => false

/-- The part of a record with the name, which is at the place given in an array. -/
def part? (place : Nat) (name : String) : Toml → Option Toml
  | table entries => entries.lookup name
  | arr elements => elements[place]?
  | _ => none

/-- Whether a table has no other names than these, or an array has a place for each of them. -/
def fits (names : List String) : Toml → Bool
  | table entries => entries.all (names.contains ·.1)
  | arr elements => names.length ≤ elements.length
  | _ => false

variable {α : Type} [OfToml α]

/-- A part of a record, or `default` where it is missing. -/
def withDefault (place : Nat) (name : String) (default : α) (record : Toml) : Option α :=
  match record.part? place name with
  | some v => ofToml? v
  | none => some default

/-- A part of a record, where it is not missing. -/
def optional (place : Nat) (name : String) (record : Toml) : Option (Option α) :=
  match record.part? place name with
  | some v => some <$> ofToml? v
  | none => some none

end Toml

end HostProfile
