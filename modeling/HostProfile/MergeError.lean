import HostProfile.Config.Error

/-!
# Failed merges
-/

namespace HostProfile

/-- Why an operation on a container failed. -/
inductive MergeError where
  /-- The definition, or a context that it is evaluated in, is malformed. -/
  | item (cause : ItemError)
  /-- The container's configuration is unusable. -/
  | config (cause : Config.Error)
  /-- Two definitions have one key, and no rule decides between them. -/
  | conflict (kind key existing candidate : String)
  /-- The definition has the key of a pinned entry. -/
  | pinned (key existing candidate : String)
  /-- The table of `buckets` buckets has none for the key. -/
  | capacity (key : String) (buckets : Nat)
  deriving DecidableEq, Repr

namespace MergeError

/-- The wording of the error, where it has one. -/
def message? : MergeError → Option String
  | item cause => some ("Invalid item: " ++ cause.message)
  | config cause => cause.message?.map ("Configuration error: " ++ ·)
  | conflict kind key existing candidate =>
    some ("Conflicting " ++ kind ++ " definitions for \x27" ++ key ++ "\x27: " ++ existing ++
      " vs " ++ candidate)
  | pinned key existing candidate =>
    some ("Cannot merge " ++ candidate ++ ": version of \x27" ++ key ++ "\x27 is pinned by " ++
      existing)
  | capacity key buckets =>
    some ("No free bucket for \x27" ++ key ++ "\x27 in a table of " ++ toString buckets ++
      " buckets")

end MergeError

end HostProfile
