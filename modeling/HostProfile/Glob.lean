import HostProfile.FileTree

/-!
# File name patterns

A pattern is a path whose names may hold wildcards: `?` for one character, `*` for any number of
them, and a class in brackets for one character of a set, or for one outside of the set behind
`[!`. The name `**` stands for any number of directories. A file system is searched name by name:
a name without wildcards is only looked up, all others are compared with the entries of the
directory.
-/

namespace HostProfile.Glob

/-- What a stretch of a name has to be like. -/
inductive Token where
  | char (c : Char)
  | anyChar
  /-- Any number of characters. -/
  | anyText
  /-- A character in one of the ranges, or in none of them. -/
  | charIn (inside : Bool) (ranges : List (Char × Char))
  deriving DecidableEq, Repr

/-- The ranges of a class, of which a single character is one, too. -/
def ranges : List Char → List (Char × Char)
  | a :: '-' :: b :: rest => (a, b) :: ranges rest
  | a :: rest => (a, a) :: ranges rest
  | [] => []

/-- A class behind its opening bracket, and what follows it. A bracket that comes first in the
class does not close it. -/
def class? (inside : Bool) : List Char → Option (Token × List Char)
  | c :: rest =>
    match rest.dropWhile (· != ']') with
    | _ :: after => some (.charIn inside (ranges (c :: rest.takeWhile (· != ']'))), after)
    | [] => none
  | [] => none

theorem length_lt_of_class? {inside : Bool} {cs : List Char} {p : Token × List Char}
    (h : class? inside cs = some p) : p.2.length < cs.length := by
  revert h
  fun_cases class? inside cs with
  | case1 c rest d after found =>
    intro h
    cases h
    have le := (List.dropWhile_sublist (· != ']') (l := rest)).length_le
    rw [found, List.length_cons] at le
    simp only [List.length_cons]
    omega
  | case2 => simp
  | case3 => simp

/-- The tokens of a name. A doubled `*` is refused. -/
def tokens? (cs : List Char) : Option (List Token) :=
  match cs with
  | [] => some []
  | '*' :: '*' :: _ => none
  | '*' :: rest => (.anyText :: ·) <$> tokens? rest
  | '?' :: rest => (.anyChar :: ·) <$> tokens? rest
  | '[' :: '!' :: rest =>
    match _ : class? false rest with
    | some p => (p.1 :: ·) <$> tokens? p.2
    | none => none
  | '[' :: rest =>
    match _ : class? true rest with
    | some p => (p.1 :: ·) <$> tokens? p.2
    | none => none
  | c :: rest => (.char c :: ·) <$> tokens? rest
termination_by cs.length
decreasing_by
  all_goals simp only [List.length_cons]
  · omega
  · omega
  · have := length_lt_of_class? ‹class? false rest = some p›
    omega
  · have := length_lt_of_class? ‹class? true rest = some p›
    omega
  · omega

/-- Whether the character passes as a token. -/
def Token.admits : Token → Char → Bool
  | char c, d => c == d
  | anyChar, _ | anyText, _ => true
  | charIn inside ranges, d => ranges.any (fun r => r.1 ≤ d && d ≤ r.2) == inside

/-- Whether the characters are what the tokens ask for. -/
def admits : List Token → List Char → Bool
  | [], cs => cs.isEmpty
  | .anyText :: ts, [] => admits ts []
  | .anyText :: ts, c :: cs => admits ts (c :: cs) || admits (.anyText :: ts) cs
  | _ :: _, [] => false
  | t :: ts, c :: cs => t.admits c && admits ts cs

/-- A name of a pattern. -/
structure Step where
  tokens : List Token
  /-- Whether any number of directories may stand in front of the name. -/
  deep : Bool
  deriving DecidableEq, Repr

namespace Step

/-- The only name that the step admits, when it has no wildcards. -/
def literal? (step : Step) : Option String :=
  if step.deep then none
  else String.ofList <$> step.tokens.mapM fun
    | .char c => some c
    | _ => none

/-- Whether the step admits the name. -/
def admits (step : Step) (name : String) : Bool := Glob.admits step.tokens name.toList

/-- The names at which the step looks in a directory, as paths from there. The directory above and
the directory itself are looked at only by a step that begins with a dot, and before all else. -/
def candidates (step : Step) (directory : FileTree) : List (List String) :=
  let all := directory.inside
  if step.deep then all
  else
    (if step.tokens.head? == some (.char '.') then [[".."], ["."]] else []) ++
      all.filter (·.length == 1)

end Step

/-- The steps of the names of a pattern, where `deep` tells whether `**` comes before them. The
last name has to be a step. -/
def steps? (deep : Bool) : List String → Option (List Step)
  | [] => if deep then none else some []
  | name :: rest => do
    if name == "**" then steps? true rest
    else
      let tokens ← tokens? name.toList
      return ⟨tokens, deep⟩ :: (← steps? false rest)

/-- A pattern: where the search begins, and the names. -/
structure Pattern where
  start : String
  steps : List Step
  deriving DecidableEq, Repr

/-- The pattern of a text. -/
def parse? (text : String) : Option Pattern := do
  let relative := text.toList.dropWhile (· == '/')
  let names := (Path.split relative).map String.ofList
  return ⟨if Path.isAbsolute text then "/" else "", ← steps? false names⟩

/-- The paths behind `path` that the steps lead to. -/
def search (tree : FileTree) : List Step → String → List String
  | [], path => [path]
  | step :: rest, path =>
    match step.literal? with
    | some name =>
      let next := Path.join path name
      let found :=
        if name == "." || name == ".." then tree.isDirectory path else tree.exists? next
      if found then search tree rest next else []
    | none =>
      match tree.entries? path with
      | some entries =>
        let admitted := (step.candidates (.directory entries)).filter fun names =>
          names.getLast?.any step.admits
        admitted.flatMap fun names => search tree rest (names.foldl Path.join path)
      | none => []

/-- The paths that match the pattern. -/
def Pattern.matches (tree : FileTree) (pattern : Pattern) : List String :=
  search tree pattern.steps pattern.start

end HostProfile.Glob
