import HostProfile.Item
import HostProfile.Version

/-!
# Packages

A package is identified by its name and, where it has one, its architecture. Version, release and
flags are what it brings along, and its mark may stand for a directive.
-/

namespace HostProfile

/-- A software package. -/
structure Package where
  name : String
  arch : Option String := none
  version : String := ""
  release : Option String := none
  flags : List String := []
  mark : Option Char := none
  context : String := ""
  derivation : Derivation := {}
  priority : Int32 := 0
  deriving DecidableEq

namespace Package

/-- The version with the release behind it. -/
def versionRelease (p : Package) : String :=
  match p.release with
  | some release => p.version ++ "-" ++ release
  | none => p.version

/-- Equality of everything but derivation and priority. -/
def sameFields (a b : Package) : Bool :=
  a.name == b.name && a.arch == b.arch && a.version == b.version && a.release == b.release &&
    a.flags == b.flags && a.mark == b.mark && a.context == b.context

/-- By name, architecture, version and release; packages whose versions and releases have the
same order follow their texts, and last come flags, mark and context. -/
protected def compare (a b : Package) : Ordering :=
  (compare a.name b.name).then <|
    (compare a.arch b.arch).then <|
      (Version.compare a.version b.version).then <|
        (Version.compareReleases a.release b.release).then <|
          (compare a.version b.version).then <|
            (compare a.release b.release).then <|
              (compare a.flags b.flags).then <|
                (compare a.mark b.mark).then (compare a.context b.context)

/-- Mark, name, architecture, version and context, each where there is one. -/
def render (p : Package) : String :=
  (p.mark.map Char.toString).getD "" ++ p.name ++ (p.arch.map ("." ++ ·)).getD "" ++
    (if p.version.isEmpty then "" else "-" ++ p.versionRelease) ++
      if p.context.isEmpty then "" else " [" ++ p.context ++ "]"

/-- What a package need not have is left out when it is not there. -/
instance : ToJson Package where
  toJson p :=
    .obj (
      [("name", toJson p.name)] ++
      (p.arch.map fun arch => ("arch", toJson arch)).toList ++
      [("version", toJson p.version)] ++
      (p.release.map fun release => ("release", toJson release)).toList ++
      (if p.flags.isEmpty then [] else [("flags", toJson p.flags)]) ++
      (p.mark.map fun mark => ("prefix", toJson mark)).toList ++
      [("context", toJson p.context),
        ("derivation", toJson p.derivation),
        ("priority", toJson p.priority)])

/-- Only the name has to be there, and nothing is checked. -/
instance : OfJson Package where
  ofJson? j := do
    return {
      name := ← j.required "name"
      arch := ← j.optional "arch"
      version := ← j.withDefault "version" ""
      release := ← j.optional "release"
      flags := ← j.withDefault "flags" []
      mark := ← j.optional "prefix"
      context := ← j.withDefault "context" ""
      derivation := ← j.withDefault "derivation" {}
      priority := ← j.withDefault "priority" 0 }

instance : Item Package where
  kind := "package"
  name := name
  arch := arch
  context := context
  derivation := derivation
  priority := priority
  withPriority p n := { p with priority := n }
  withDerivation p d := { p with derivation := d }
  mark := mark
  sameFields := sameFields
  compare := Package.compare
  render := render

/-- The package without blanks around its context, if it is well formed: the parts that identify
it do, the version may be empty, the mark stands for a directive, and the context is an
expression. -/
def build (p : Package) : Except ItemError Package := do
  let p := { p with context := Text.trim p.context }
  Identifier.packageName.check p.name
  p.arch.forM Identifier.packageArch.check
  if !p.version.isEmpty then Identifier.packageVersion.check p.version
  p.release.forM Identifier.packageRelease.check
  p.flags.forM Identifier.packageFlag.check
  let _ ← Item.directive p
  let _ ← Context.Expr.parse p.context
  return p

end Package

end HostProfile
