import HostProfile.ItemError
import HostProfile.OrderedMap

/-!
# Enabled contexts

A context set gives each enabled context its priority. Contexts are enabled with positive
priorities; a set that is read back from its stored form may hold any.
-/

namespace HostProfile

/-- The enabled contexts and their priorities, in the order in which they were enabled. -/
structure ContextSet where
  priorities : OrderedMap Int32
  deriving DecidableEq

namespace ContextSet

/-- No context is enabled. -/
def empty : ContextSet := ⟨.empty⟩

instance : EmptyCollection (ContextSet) := ⟨empty⟩

instance : Inhabited ContextSet := ⟨empty⟩

/-- The number of enabled contexts. -/
def size (set : ContextSet) : Nat := set.priorities.size

/-- The priority of an enabled context. -/
def priority? (set : ContextSet) (name : String) : Option Int32 := set.priorities.get? name

/-- Whether the context is enabled. -/
def isEnabled (set : ContextSet) (name : String) : Bool := set.priorities.contains name

/-- Enables a context, or gives an enabled one another priority. -/
def enable (set : ContextSet) (name : String) (priority : Int32) : Except ItemError ContextSet :=
  if !Context.isValidName name then .error (.contextName name)
  else if priority ≤ 0 then .error (.contextPriority name priority)
  else .ok ⟨set.priorities.insert name priority⟩

/-- Disables a context; the others keep their order. -/
def disable (set : ContextSet) (name : String) : ContextSet := ⟨set.priorities.erase name⟩

/-- The contexts enabled one after another. -/
def enableAll (set : ContextSet) (contexts : List (String × Int32)) : Except ItemError ContextSet :=
  contexts.foldlM (fun s c => s.enable c.1 c.2) set

/-- The layers of a profile as contexts: each has its place in the list as its priority, so that
later layers win. -/
def ofLayers (layers : List String) : Except ItemError ContextSet :=
  layers.zipIdx.foldlM (fun s (name, i) =>
    if i + 1 ≤ Int32.maxValue.toInt.toNat then s.enable name (Int32.ofNat (i + 1))
    else .error .tooManyLayers) empty

end ContextSet

end HostProfile
