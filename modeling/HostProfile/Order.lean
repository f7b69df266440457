import HostProfile.Json.Convert
import HostProfile.Text.Lowercase

/-!
# Sorted output

Which items output shows, and in which order keys come.
-/

namespace HostProfile

/-- Which items are shown. -/
inductive Visibility where
  /-- The items whose context applies. -/
  | active
  | all
  deriving DecidableEq, Repr, Inhabited

namespace Visibility

/-- Whether an item of the priority is shown. -/
def shows : Visibility → Int32 → Bool
  | active, priority => 0 ≤ priority
  | all, _ => true

/-- All items or only the active ones. -/
def ofAllPriorities (all : Bool) : Visibility := if all then .all else active

def label : Visibility → String
  | active => "active"
  | all => "all"

/-- The visibility of the name. -/
def ofLabel? (text : String) : Option Visibility := [active, all].find? (·.label == text)

instance : ToJson Visibility := ⟨fun v => .str v.label⟩

instance : OfJson Visibility := ⟨fun j => ofJson? j >>= ofLabel?⟩

end Visibility

/-- How letters of different case are ordered. -/
inductive CaseMode where
  | insensitive
  | sensitive
  deriving DecidableEq, Repr, Inhabited

namespace CaseMode

def ofInsensitive (yes : Bool) : CaseMode := if yes then insensitive else sensitive

def label : CaseMode → String
  | insensitive => "insensitive"
  | sensitive => "sensitive"

/-- The mode of the name. -/
def ofLabel? (text : String) : Option CaseMode :=
  [insensitive, sensitive].find? (·.label == text)

instance : ToJson CaseMode := ⟨fun c => .str c.label⟩

instance : OfJson CaseMode := ⟨fun j => ofJson? j >>= ofLabel?⟩

/-- The order of two keys. Keys that differ only in case come in the order of their characters,
so that only equal keys compare as equal. -/
protected def compare : CaseMode → String → String → Ordering
  | sensitive, a, b => compare a b
  | insensitive, a, b => (compare (Text.fold a) (Text.fold b)).then (compare a b)

end CaseMode

/-- The order and the extent of sorted output. -/
structure OutputOrder where
  case : CaseMode := .insensitive
  visibility : Visibility := .active
  deriving DecidableEq, Repr, Inhabited

/-- The order that does not depend on a configuration, in which contents are digested. -/
def OutputOrder.canonical : OutputOrder := ⟨.sensitive, .active⟩

instance : ToJson OutputOrder := ⟨fun o => toJson (o.case, o.visibility)⟩

end HostProfile
