import HostProfile.Context.Set
import HostProfile.Json.Convert
import HostProfile.Json.Reader

/-!
# The stored form of context sets

A context set is stored as an object with a member for each context, in the order of the set.
Reading checks neither names nor priorities, so that any set can be read back.
-/

namespace HostProfile.ContextSet

instance : ToJson ContextSet where
  toJson set := .obj (set.priorities.entries.map fun (name, priority) => (name, toJson priority))

/-- A repeated name keeps its first place and takes its last priority. -/
instance : OfJson ContextSet where
  ofJson?
    | .obj members => do
      let entries ← members.mapM fun (name, value) => do return (name, ← ofJson? value)
      return ⟨.ofList entries⟩
    | _ => none

/-- The set whose stored form the text is. -/
def parse? (text : String) : Option ContextSet := Json.parse? text >>= ofJson?

end HostProfile.ContextSet
