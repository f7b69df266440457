import HostProfile.ItemError

/-!
# Unusable configurations
-/

namespace HostProfile.Config

/-- Why a configuration cannot be had or used. -/
inductive Error where
  /-- The file cannot be read as text. -/
  | unreadable (path : String)
  /-- The text of the file is no configuration. -/
  | malformed (path : String)
  /-- Packages are hashed by architecture, and their key leaves the architecture out. -/
  | bucketWithoutArch
  | notFound (path : String)
  /-- No merge rule has the name. -/
  | unknownRule (name : String)
  /-- The directory's path is no file name pattern. -/
  | badPattern (pattern : String)
  /-- A context cannot be enabled. -/
  | context (cause : ItemError)
  deriving DecidableEq, Repr

/-- The wording of the error, where it has one of its own. -/
def Error.message? : Error → Option String
  | bucketWithoutArch =>
    some ("Invalid configuration: " ++
      "bucket_by_arch requires a package_scope that includes the arch")
  | notFound path => some ("Configuration file not found: " ++ path)
  | unknownRule name => some ("Unknown merge rule: " ++ name)
  | context cause => some ("Invalid context: " ++ cause.message)
  | unreadable _ | malformed _ | badPattern _ => none

end HostProfile.Config
