import HostProfile.Context.Parser
import HostProfile.Derivation
import HostProfile.Directive

/-!
# Items

An item is a definition that a profile can hold: a resource or a package. The class gives what
merging needs to know of one; `KeyScope` says which items define the same thing.
-/

namespace HostProfile

/-- A definition that a profile can hold. -/
class Item (T : Type) extends ToJson T where
  /-- The kind of the item, as messages call it. -/
  kind : String
  name : T → String
  /-- The architecture, where the item has one. -/
  arch : T → Option String
  /-- The text of the context expression. -/
  context : T → String
  derivation : T → Derivation
  /-- The priority that the context expression had when it was last evaluated. -/
  priority : T → Int32
  withPriority : T → Int32 → T
  withDerivation : T → Derivation → T
  /-- The mark of a directive, where the item carries one. -/
  mark : T → Option Char
  /-- Equality of everything but derivation and priority. -/
  sameFields : T → T → Bool
  /-- The order of items in sorted output. -/
  compare : T → T → Ordering
  /-- The item on one line. -/
  render : T → String

namespace Item

variable {T : Type} [Item T]

/-- An item is active when its context applies. -/
def isActive (item : T) : Bool := 0 ≤ priority item

/-- The directive that the item carries. -/
def directive (item : T) : Except ItemError (Option Directive) :=
  match mark item with
  | none => .ok none
  | some c =>
    match Directive.ofChar? c with
    | some d => .ok (some d)
    | none => .error (.directive c)

/-- The item with its derivation and priority, as messages about a merge show it. -/
def describe (item : T) : String :=
  render item ++ " (from " ++ (derivation item).render ++ ", priority " ++
    toString (priority item).toInt ++ ")"

end Item

/-- The priority of an item when the contexts of `set` are enabled. -/
def ContextSet.evaluateItem {T : Type} [Item T] (set : ContextSet) (item : T) :
    Except ItemError Int32 :=
  set.evaluate (Item.context item)

/-- The parts of an item that make up its key. -/
inductive KeyScope where
  | name
  | nameArch
  | nameArchContext
  deriving DecidableEq, Repr, Inhabited

namespace KeyScope

/-- The scopes, from coarse to fine. -/
def all : List KeyScope := [name, nameArch, nameArchContext]

/-- The name of the scope in configurations. -/
def label : KeyScope → String
  | name => "name"
  | nameArch => "name-arch"
  | nameArchContext => "name-arch-context"

/-- The scope of the name. -/
def ofLabel? (text : String) : Option KeyScope := all.find? (·.label == text)

instance : ToJson KeyScope := ⟨fun s => .str s.label⟩

instance : OfJson KeyScope := ⟨fun j => ofJson? j >>= ofLabel?⟩

variable {T : Type} [Item T]

/-- The key of an item as a text. -/
def key (scope : KeyScope) (item : T) : String :=
  match scope, Item.arch item with
  | name, _ | nameArch, none => Item.name item
  | nameArch, some arch => Item.name item ++ "." ++ arch
  | nameArchContext, arch =>
    Item.name item ++ "." ++ arch.getD "" ++ "@" ++ Item.context item

/-- Whether two items have the same key, part by part. -/
def collides (scope : KeyScope) (a b : T) : Bool :=
  Item.name a == Item.name b &&
    match scope with
    | name => true
    | nameArch => Item.arch a == Item.arch b
    | nameArchContext => Item.arch a == Item.arch b && Item.context a == Item.context b

end KeyScope

end HostProfile
