import HostProfile.Json.Convert

/-!
# Derivations

A derivation tells where a definition came from. It is carried along for messages and takes no
part in deciding a merge, except that the copies of one definition are known by sharing it: a
shared derivation lies in a numbered cell, and two derivations are one when their cells are.
-/

namespace HostProfile

/-- The sources of a definition, such as lines of files, in the order of its history. -/
structure Derivation where
  sources : List String := []
  deriving DecidableEq, Repr, Inhabited

namespace Derivation

/-- The derivation from one line of a file. -/
def ofLocation (file : String) (line : Nat) : Derivation := ⟨[file ++ ":" ++ toString line]⟩

/-- The sources, or a stand-in where there are none. -/
def render (d : Derivation) : String :=
  if d.sources.isEmpty then "<unknown>" else ", ".intercalate d.sources

instance : ToJson Derivation := ⟨fun d => toJson d.sources⟩

instance : OfJson Derivation := ⟨fun j => Derivation.mk <$> ofJson? j⟩

end Derivation

/-- The number of a place at which something shared is kept. -/
abbrev Cell : Type := Nat

/-- Hands out cells that were not in use before. -/
structure Supply where
  next : Cell := 0
  deriving DecidableEq, Repr, Inhabited

/-- A cell and the supply without it. -/
def Supply.take (s : Supply) : Cell × Supply := (s.next, ⟨s.next + 1⟩)

/-- A derivation in its cell. -/
structure SharedDerivation where
  cell : Cell
  derivation : Derivation
  deriving DecidableEq, Repr, Inhabited

namespace SharedDerivation

/-- Whether both are one derivation, and not merely equal. -/
def shares (a b : SharedDerivation) : Bool := a.cell == b.cell

/-- A new derivation with one more source. -/
def append (d : SharedDerivation) (source : String) (cell : Cell) : SharedDerivation :=
  ⟨cell, ⟨d.derivation.sources ++ [source]⟩⟩

/-- A new derivation with the sources of both. -/
def join (a b : SharedDerivation) (cell : Cell) : SharedDerivation :=
  ⟨cell, ⟨a.derivation.sources ++ b.derivation.sources⟩⟩

end SharedDerivation

end HostProfile
