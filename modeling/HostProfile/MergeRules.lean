import HostProfile.Config.Error
import HostProfile.Json.Convert

/-!
# Merge rules

The rules decide what becomes of a definition whose key is taken. Several may be in force; they
are asked in the order of their table, and the first that applies decides. A word of flags may
also carry bits that no rule has; they are kept and mean nothing.
-/

namespace HostProfile

/-- A rule for definitions whose key is taken. -/
inductive MergeRule where
  /-- A definition with the same fields as an entry takes its place. -/
  | squashIdentical
  /-- Every definition is kept beside the entries. -/
  | keepAll
  /-- Every definition takes the place of the entries. -/
  | replace
  /-- The higher priority wins. -/
  | usePriority
  deriving DecidableEq, Repr

namespace MergeRule

/-- The rules, in the order in which they are asked. -/
def all : List MergeRule := [squashIdentical, keepAll, replace, usePriority]

/-- The name of the rule in configurations. -/
def label : MergeRule → String
  | squashIdentical => "squash-identical"
  | keepAll => "keep-all"
  | replace => "replace"
  | usePriority => "use-priority"

/-- The rule of a name; blanks around the name do not count. -/
def ofLabel? (text : String) : Option MergeRule := all.find? (·.label == Text.trim text)

end MergeRule

/-- The rules in force. -/
structure MergeRules where
  squashIdentical : Bool := false
  keepAll : Bool := false
  replace : Bool := false
  usePriority : Bool := false
  /-- The bits of no rule, of which the lowest four are unset. -/
  unknown : UInt32 := 0
  deriving DecidableEq, Repr, Inhabited

namespace MergeRules

/-- No rule is in force. -/
def none : MergeRules := {}

/-- The rules of a container that names none. -/
def standard : MergeRules := { squashIdentical := true, usePriority := true }

/-- Whether the rule is in force. -/
def has (rules : MergeRules) : MergeRule → Bool
  | .squashIdentical => rules.squashIdentical
  | .keepAll => rules.keepAll
  | .replace => rules.replace
  | .usePriority => rules.usePriority

/-- The rules with one more in force. -/
def add (rules : MergeRules) : MergeRule → MergeRules
  | .squashIdentical => { rules with squashIdentical := true }
  | .keepAll => { rules with keepAll := true }
  | .replace => { rules with replace := true }
  | .usePriority => { rules with usePriority := true }

/-- The rules that the names stand for. -/
def ofNames (names : List String) : Except Config.Error MergeRules :=
  names.foldlM (fun rules name =>
    match MergeRule.ofLabel? name with
    | some rule => .ok (rules.add rule)
    | Option.none => .error (.unknownRule name)) none

/-- The rules in force, in the order in which they are asked. -/
def rules (rules : MergeRules) : List MergeRule := MergeRule.all.filter rules.has

/-- The names of the rules in force. -/
def names (rules : MergeRules) : List String := rules.rules.map MergeRule.label

/-- The rule, when it alone is in force. -/
def single? (rules : MergeRules) : Option MergeRule :=
  MergeRule.all.find? fun rule => rules == none.add rule

/-- The flags as a word; the first rule has the lowest bit. -/
def bits (rules : MergeRules) : UInt32 :=
  rules.unknown |||
    (if rules.squashIdentical then 1 else 0) ||| (if rules.keepAll then 2 else 0) |||
    (if rules.replace then 4 else 0) ||| (if rules.usePriority then 8 else 0)

/-- The flags of a word, with the bits of no rule. -/
def ofBits (bits : UInt32) : MergeRules where
  squashIdentical := bits &&& 1 != 0
  keepAll := bits &&& 2 != 0
  replace := bits &&& 4 != 0
  usePriority := bits &&& 8 != 0
  unknown := bits &&& 0xFFFFFFF0

/-- The flags of a word that has only bits of rules. -/
def ofBits? (bits : UInt32) : Option MergeRules :=
  let rules := ofBits bits
  if rules.unknown == 0 then some rules else Option.none

/-- The flags of a word without the bits of no rule. -/
def ofBitsTruncate (bits : UInt32) : MergeRules := { ofBits bits with unknown := 0 }

/-- The names of the rules in force between bars, or a stand-in where no bit is set. -/
def render (rules : MergeRules) : String :=
  if rules == none then "none" else "|".intercalate rules.names

instance : ToJson MergeRules := ⟨fun rules => .str rules.render⟩

end MergeRules

end HostProfile
