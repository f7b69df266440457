import HostProfile.Resource

/-!
# Environment variables

The active values of a profile's resources as variables: a variable is called by the component and
the resource, with a dot between them. Neither part is looked at further here.
-/

namespace HostProfile.Environment

/-- A variable and its value. -/
abbrev Variable : Type := String × String

/-- The variable of a resource. -/
def variableName (component resource : String) : String := component ++ "." ++ resource

/-- The component and the resource of a variable, on both sides of its first dot. -/
def split? (variableName : String) : Option (String × String) :=
  let cs := variableName.toList
  match cs.dropWhile (· != '.') with
  | _ :: rest => some (String.ofList (cs.takeWhile (· != '.')), String.ofList rest)
  | [] => none

/-- The component and the resource that a variable defines. -/
def define (v : Variable) (derivation : Derivation) : Except ItemError (String × Resource) :=
  match split? v.1 with
  | none => .error (.environmentKey v.1)
  | some (component, name) => do
    return (component, ← Resource.build { name, value := v.2, derivation })

end HostProfile.Environment
