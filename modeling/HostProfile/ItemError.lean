import HostProfile.Context.Token
import HostProfile.Text.Quoted

/-!
# Malformed definitions

What can be wrong with the parts of a definition, and with the contexts that it is evaluated in.
-/

namespace HostProfile

/-- The texts that identify an item or go into its identity. -/
inductive Identifier where
  | resourceName
  | resourceType
  | packageName
  | packageArch
  | packageVersion
  | packageRelease
  | packageFlag
  deriving DecidableEq, Repr

/-- The identifier as messages call it. -/
def Identifier.label : Identifier → String
  | resourceName => "resource name"
  | resourceType => "resource type"
  | packageName => "package name"
  | packageArch => "package arch"
  | packageVersion => "package version"
  | packageRelease => "package release"
  | packageFlag => "package flag"

/-- Why a definition or a context is malformed. -/
inductive ItemError where
  /-- The identifier has no characters. -/
  | emptyIdentifier (part : Identifier)
  /-- The identifier holds a blank, `=` or NUL; `c` is the first of these. -/
  | forbiddenChar (part : Identifier) (value : String) (c : Char)
  /-- The value of the resource holds NUL. -/
  | nulInValue (resource : String)
  /-- No context can have the name. -/
  | contextName (name : String)
  /-- Only a positive priority enables a context. -/
  | contextPriority (name : String) (priority : Int32)
  /-- There are more layers than priorities. -/
  | tooManyLayers
  /-- A component needs a name. -/
  | emptyComponentName
  /-- The component name holds a dot or a blank. -/
  | componentName (name : String)
  /-- The variable has no dot between a component and a resource. -/
  | environmentKey (key : String)
  /-- The mark stands for no directive. -/
  | directive (c : Char)
  /-- The text is no context expression. -/
  | contextSyntax (expr : String) (cause : Context.SyntaxError)
  deriving DecidableEq, Repr

namespace ItemError

/-- A value of the field that messages call `field` is invalid, for the reason given. -/
def invalid (field reason : String) : String := "Invalid " ++ field ++ ": " ++ reason

/-- The wording of the error. -/
def message : ItemError → String
  | emptyIdentifier part => invalid part.label "must not be empty"
  | forbiddenChar part value c =>
    invalid part.label
      ("\x27" ++ value ++ "\x27 contains forbidden character " ++ Text.quotedChar c)
  | nulInValue resource =>
    invalid "resource value" ("value of \x27" ++ resource ++ "\x27 contains NUL")
  | contextName name => invalid "context" ("\x27" ++ name ++ "\x27 is not a valid context name")
  | contextPriority name priority =>
    invalid "context"
      ("priority of \x27" ++ name ++ "\x27 must be positive, got " ++ toString priority.toInt)
  | tooManyLayers => invalid "context" "too many layers"
  | emptyComponentName => invalid "component" "name must not be empty"
  | componentName name =>
    invalid "component" ("\x27" ++ name ++ "\x27 must not contain dots or whitespace")
  | environmentKey key =>
    invalid "environment" ("\x27" ++ key ++ "\x27 is not of the form component.resource")
  | directive c => "Invalid prefix directive \x27" ++ c.toString ++ "\x27"
  | contextSyntax expr cause =>
    "Invalid context expression \x27" ++ expr ++ "\x27: " ++ cause.message

end ItemError

/-- An identifier is not empty and holds no blank, no `=` and no NUL. -/
def Identifier.check (part : Identifier) (value : String) : Except ItemError Unit :=
  if value.isEmpty then .error (.emptyIdentifier part)
  else match value.toList.find? fun c => Text.isBlank c || c == '=' || c == Char.ofNat 0 with
    | some c => .error (.forbiddenChar part value c)
    | none => .ok ()

end HostProfile
