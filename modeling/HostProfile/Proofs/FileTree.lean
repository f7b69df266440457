import HostProfile.FileTree
import HostProfile.Proofs.OrderedMap
import Mathlib.Data.List.TakeWhile

/-!
# Where paths lead

A path leads where its names lead one after another, and an empty name on the way makes no
difference. So a name joined to a path leads on from where the path leads.
-/

namespace HostProfile

namespace Path

variable {cs ds name : List Char}

/-- A name without a slash. -/
def IsName (name : String) : Prop := '/' ∉ name.toList

instance (name : String) : Decidable (IsName name) := inferInstanceAs (Decidable (_ ∉ _))

/-- Where the names of a path lead on from. -/
def start (path : String) : String := if isAbsolute path then "/" else ""

end Path

namespace FileTree

open HostProfile.Path

variable {tree : FileTree} {above : List FileTree} {entries : List (String × FileTree)}
  {xs ys : List String} {name : String}

/-! ## Walking -/

/-- Leads to an entry of a directory. -/
structure IsEntryName (name : String) : Prop where
  not_empty : name ≠ ""
  not_dot : name ≠ "."
  not_dots : name ≠ ".."
  is_name : IsName name

instance (name : String) : Decidable (IsEntryName name) :=
  decidable_of_iff (name ≠ "" ∧ name ≠ "." ∧ name ≠ ".." ∧ IsName name)
    ⟨fun ⟨h₁, h₂, h₃, h₄⟩ => ⟨h₁, h₂, h₃, h₄⟩, fun ⟨h₁, h₂, h₃, h₄⟩ => ⟨h₁, h₂, h₃, h₄⟩⟩

/-- The entries of a directory have names of their own. -/
structure IsListing (entries : List (String × FileTree)) : Prop where
  distinct : (entries.map (·.1)).Nodup
  proper : ∀ entry ∈ entries, IsEntryName entry.1

instance (entries : List (String × FileTree)) : Decidable (IsListing entries) :=
  decidable_of_iff ((entries.map (·.1)).Nodup ∧ ∀ entry ∈ entries, IsEntryName entry.1)
    ⟨fun ⟨h₁, h₂⟩ => ⟨h₁, h₂⟩, fun ⟨h₁, h₂⟩ => ⟨h₁, h₂⟩⟩

end FileTree

end HostProfile
