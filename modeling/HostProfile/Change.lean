import HostProfile.Json.Convert

/-!
# Outcomes of merges
-/

namespace HostProfile

/-- What a merge did. -/
inductive Change where
  /-- The definition was put at the end. -/
  | added
  /-- Entries were dropped and nothing was put in. -/
  | removed
  /-- The definition took the place of entries. -/
  | replaced
  /-- One of several merges did something. -/
  | modified
  | unchanged
  deriving DecidableEq, Repr, Inhabited

namespace Change

/-- Whether anything was done. -/
def isChange (c : Change) : Bool := c != unchanged

/-- The outcome of two merges together. -/
def aggregate (a b : Change) : Change := if a.isChange || b.isChange then modified else unchanged

def label : Change → String
  | added => "added"
  | removed => "removed"
  | replaced => "replaced"
  | modified => "modified"
  | unchanged => "unchanged"

/-- The outcome of the name. -/
def ofLabel? (text : String) : Option Change :=
  [added, removed, replaced, modified, unchanged].find? (·.label == text)

instance : ToJson Change := ⟨fun c => .str c.label⟩

instance : OfJson Change := ⟨fun j => ofJson? j >>= ofLabel?⟩

end Change

end HostProfile
