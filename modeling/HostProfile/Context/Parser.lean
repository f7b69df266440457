import HostProfile.Context.Expr

/-!
# Reading context expressions

`!` binds tighter than `&&`, and `&&` tighter than `||`; both group to the left. A text without
tokens applies everywhere.

Each reader takes the tokens of its construct from the front and hands back what follows them,
with a proof that it has not grown, by which the readers end. What they count down is one number
for all of them, the tokens first and then the level of the construct, so that they still compute
inside a proof.
-/

namespace HostProfile.Context

namespace Parser

/-- Tokens that follow after at least one of `ts` was taken. -/
abbrev Shorter (ts : List Token) : Type := { rest : List Token // rest.length < ts.length }

/-- Tokens that follow after some of `ts`, or none, were taken. -/
abbrev NotLonger (ts : List Token) : Type := { rest : List Token // rest.length ≤ ts.length }

/-- What a name stands for: two of them are constants. -/
def atom (text : String) : Expr :=
  if text = "true" then .always else if text = "false" then .never else .name text

mutual

/-- Reads conjunctions joined by `||`. -/
def disjunction (ts : List Token) : Except SyntaxError (Expr × Shorter ts) := do
  let (lhs, ⟨rest, _⟩) ← conjunction ts
  let (e, ⟨after, _⟩) ← disjuncts lhs rest
  return (e, ⟨after, by omega⟩)
termination_by 5 * ts.length + 4

/-- Goes on with a disjunction after its first part. -/
def disjuncts (lhs : Expr) (ts : List Token) : Except SyntaxError (Expr × NotLonger ts) :=
  match ts with
  | .or :: rest => do
    let (rhs, ⟨more, _⟩) ← conjunction rest
    let (e, ⟨after, _⟩) ← disjuncts (.or lhs rhs) more
    return (e, ⟨after, by simp only [List.length_cons]; omega⟩)
  | ts => .ok (lhs, ⟨ts, Nat.le_refl _⟩)
termination_by 5 * ts.length + 3

/-- Reads operands joined by `&&`. -/
def conjunction (ts : List Token) : Except SyntaxError (Expr × Shorter ts) := do
  let (lhs, ⟨rest, _⟩) ← operand ts
  let (e, ⟨after, _⟩) ← conjuncts lhs rest
  return (e, ⟨after, by omega⟩)
termination_by 5 * ts.length + 2

/-- Goes on with a conjunction after its first part. -/
def conjuncts (lhs : Expr) (ts : List Token) : Except SyntaxError (Expr × NotLonger ts) :=
  match ts with
  | .and :: rest => do
    let (rhs, ⟨more, _⟩) ← operand rest
    let (e, ⟨after, _⟩) ← conjuncts (.and lhs rhs) more
    return (e, ⟨after, by simp only [List.length_cons]; omega⟩)
  | ts => .ok (lhs, ⟨ts, Nat.le_refl _⟩)
termination_by 5 * ts.length + 1

/-- Reads a name, a negated operand, or an expression in parentheses. -/
def operand (ts : List Token) : Except SyntaxError (Expr × Shorter ts) :=
  match ts with
  | [] => .error .unexpectedEnd
  | .name text :: rest => .ok (atom text, ⟨rest, by simp⟩)
  | .not :: rest => do
    let (e, ⟨after, _⟩) ← operand rest
    return (.not e, ⟨after, by simp only [List.length_cons]; omega⟩)
  | .opening :: rest => do
    let (e, ⟨inside, shorter⟩) ← disjunction rest
    match inside, shorter with
    | .closing :: after, shorter =>
      return (e, ⟨after, by simp only [List.length_cons] at shorter ⊢; omega⟩)
    | t :: _, _ => .error (.expectedClosing t)
    | [], _ => .error .unclosed
  | t :: _ => .error (.unexpectedToken t)
termination_by 5 * ts.length

end

end Parser

/-- The expression that the tokens spell. -/
def Expr.ofTokens (ts : List Token) : Except SyntaxError Expr :=
  match ts with
  | [] => .ok .always
  | ts => do
    let (e, ⟨rest, _⟩) ← Parser.disjunction ts
    match rest with
    | [] => return e
    | t :: _ => .error (.unexpectedToken t)

/-- The expression that the text spells. -/
def Expr.parse (text : String) : Except ItemError Expr :=
  match tokenize text >>= ofTokens with
  | .ok e => .ok e
  | .error cause => .error (.contextSyntax text cause)

end HostProfile.Context

namespace HostProfile.ContextSet

/-- The priority of the expression that the text spells. -/
def evaluate (set : ContextSet) (text : String) : Except ItemError Int32 := do
  return (← Context.Expr.parse text).evaluate set

end HostProfile.ContextSet
