/-!
# TOML values
-/

namespace HostProfile

/-- A TOML value. Numbers other than integers and moments in time are kept as they are written. -/
inductive Toml where
  | str (s : String)
  | int (n : Int)
  | float (text : String)
  | bool (b : Bool)
  | moment (text : String)
  | arr (elements : List Toml)
  | table (entries : List (String × Toml))

namespace Toml

instance : Inhabited Toml := ⟨table []⟩

/-- May stand in a comment and, unless it has a meaning there, in a string: the tab and every
character that is no control. -/
def isText (c : Char) : Bool := c == '\t' || (0x20 ≤ c.toNat && c.toNat != 0x7F)

/-- May stand in a key that is not quoted. -/
def isBare (c : Char) : Bool := c.isAlphanum || c == '_' || c == '-'

/-- May stand between the parts of a line. -/
def isSpace (c : Char) : Bool := c == ' ' || c == '\t'

end Toml

end HostProfile
