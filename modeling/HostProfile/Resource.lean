import HostProfile.Item

/-!
# Resources

A resource is a typed value under a name, one of the settings of a component.
-/

namespace HostProfile

/-- The type of a resource that states none. -/
def defaultType : String := "string"

/-- A typed value under a name. -/
structure Resource where
  name : String
  value : String := ""
  valueType : String := defaultType
  context : String := ""
  derivation : Derivation := {}
  priority : Int32 := 0
  deriving DecidableEq

namespace Resource

/-- The resource without blanks around its context, if it is well formed: name and type identify,
the value holds no NUL, and the context is an expression. -/
def build (r : Resource) : Except ItemError Resource := do
  let r := { r with context := Text.trim r.context }
  Identifier.resourceName.check r.name
  Identifier.resourceType.check r.valueType
  if r.value.toList.contains (Char.ofNat 0) then throw (.nulInValue r.name)
  let _ ← Context.Expr.parse r.context
  return r

/-- Equality of everything but derivation and priority. -/
def sameFields (a b : Resource) : Bool :=
  a.name == b.name && a.value == b.value && a.valueType == b.valueType && a.context == b.context

/-- By name, then context, value and type. -/
protected def compare (a b : Resource) : Ordering :=
  (compare a.name b.name).then <|
    (compare a.context b.context).then <|
      (compare a.value b.value).then (compare a.valueType b.valueType)

/-- Name and value, and the context where there is one. -/
def render (r : Resource) : String :=
  r.name ++ "=" ++ r.value ++ if r.context.isEmpty then "" else " [" ++ r.context ++ "]"

instance : ToJson Resource where
  toJson r :=
    .obj [
      ("name", toJson r.name),
      ("value", toJson r.value),
      ("type", toJson r.valueType),
      ("context", toJson r.context),
      ("derivation", toJson r.derivation),
      ("priority", toJson r.priority)]

/-- Only name and value have to be there, and nothing is checked. -/
instance : OfJson Resource where
  ofJson? j := do
    return {
      name := ← j.required "name"
      value := ← j.required "value"
      valueType := ← j.withDefault "type" defaultType
      context := ← j.withDefault "context" ""
      derivation := ← j.withDefault "derivation" {}
      priority := ← j.withDefault "priority" 0 }

instance : Item Resource where
  kind := "resource"
  name := name
  arch _ := none
  context := context
  derivation := derivation
  priority := priority
  withPriority r p := { r with priority := p }
  withDerivation r d := { r with derivation := d }
  mark _ := none
  sameFields := sameFields
  compare := Resource.compare
  render := render

end Resource

end HostProfile
