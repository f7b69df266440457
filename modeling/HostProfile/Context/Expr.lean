import HostProfile.Context.Set

/-!
# Context expressions

An expression says in which contexts an item applies. Its value is a priority: negative when the
item does not apply, and otherwise the larger the more specific the contexts are that it names.
-/

namespace HostProfile.Context

/-- A context expression. -/
inductive Expr where
  /-- Applies everywhere. -/
  | always
  /-- Applies nowhere. -/
  | never
  | name (context : String)
  | not (e : Expr)
  | and (lhs rhs : Expr)
  | or (lhs rhs : Expr)
  deriving DecidableEq, Repr

/-- The priority of an item that does not apply. -/
def inactive : Int32 := -1

/-- The priority of an item that applies everywhere. -/
def unconditional : Int32 := 0

/-- The sum of two priorities; one beyond the range is the end of the range. -/
def addPriority (a b : Int32) : Int32 := Int32.ofIntClamp (a.toInt + b.toInt)

namespace Expr

/-- The priority of the expression when the contexts of `set` are enabled. A conjunction applies
when both sides do, with the sum of their priorities; a disjunction has the larger priority. -/
def evaluate (set : ContextSet) : Expr → Int32
  | always => unconditional
  | never => inactive
  | name context => (set.priority? context).getD inactive
  | not e => if e.evaluate set < 0 then unconditional else inactive
  | and lhs rhs =>
    let l := lhs.evaluate set
    let r := rhs.evaluate set
    if l < 0 || r < 0 then inactive else addPriority l r
  | or lhs rhs => max (lhs.evaluate set) (rhs.evaluate set)

/-- The contexts that the expression names, from left to right. -/
def names : Expr → List String
  | always | never => []
  | name context => [context]
  | not e => e.names
  | and lhs rhs | or lhs rhs => lhs.names ++ rhs.names

/-- The written form, with parentheses around every conjunction and disjunction. -/
def render : Expr → String
  | always => "true"
  | never => "false"
  | name context => context
  | not e => "!" ++ e.render
  | and lhs rhs => "(" ++ lhs.render ++ " && " ++ rhs.render ++ ")"
  | or lhs rhs => "(" ++ lhs.render ++ " || " ++ rhs.render ++ ")"

end Expr

end HostProfile.Context
