/-!
# Version order

Versions and releases are compared segment by segment. A segment is `~`, a maximal run of ASCII
digits or a maximal run of ASCII letters; every other character only separates segments. Runs of
digits are compared as numbers, runs of letters as texts, and at one position `~` comes before
the end of the version, the end before letters, and letters before digits.

`compare` walks both versions at once and stops at the first segment that decides.
-/

namespace HostProfile.Version

/-- An ASCII digit. -/
def isDigit (c : Char) : Bool := c.isDigit

/-- An ASCII letter. -/
def isLetter (c : Char) : Bool := c.isAlpha

/-- Belongs to no segment. -/
def isSeparator (c : Char) : Bool := !(isDigit c || isLetter c || c == '~')

/-- The order of two runs of digits as numbers: without leading zeros, the longer run is the
larger number. -/
def compareDigits (a b : List Char) : Ordering :=
  let a := a.dropWhile (· == '0')
  let b := b.dropWhile (· == '0')
  (compare a.length b.length).then (compare a b)

/-- The order of two versions whose texts are `a` and `b`. -/
def compareChars (a b : List Char) : Ordering :=
  match a, b with
  | [], [] => .eq
  | [], c :: b' =>
    if isSeparator c then compareChars [] b'
    else if c == '~' then .gt
    else .lt
  | c :: a', [] =>
    if isSeparator c then compareChars a' []
    else if c == '~' then .lt
    else .gt
  | c :: a', d :: b' =>
    if isSeparator c then compareChars a' (d :: b')
    else if isSeparator d then compareChars (c :: a') b'
    else if c == '~' then
      if d == '~' then compareChars a' b' else .lt
    else if d == '~' then .gt
    else if isDigit c then
      if isDigit d then
        (compareDigits (c :: a'.takeWhile isDigit) (d :: b'.takeWhile isDigit)).then
          (compareChars (a'.dropWhile isDigit) (b'.dropWhile isDigit))
      else .gt
    else if isDigit d then .lt
    else
      (compare (c :: a'.takeWhile isLetter) (d :: b'.takeWhile isLetter)).then
        (compareChars (a'.dropWhile isLetter) (b'.dropWhile isLetter))
termination_by a.length + b.length
decreasing_by
  all_goals simp only [List.length_cons]
  all_goals
    have drop (p : Char → Bool) (l : List Char) : (l.dropWhile p).length ≤ l.length :=
      (List.dropWhile_sublist p).length_le
    grind

/-- The order of two versions. -/
protected def compare (a b : String) : Ordering := compareChars a.toList b.toList

/-- The order of two releases, either of which may be missing; a missing one comes first. -/
def compareReleases : Option String → Option String → Ordering
  | none, none => .eq
  | none, some _ => .lt
  | some _, none => .gt
  | some a, some b => Version.compare a b

example : Version.compare "1.0~rc1" "1.0" = .lt := by decide +kernel
example : Version.compare "1.010" "1_10" = .eq := by decide +kernel
example : Version.compare "1.a" "1.0" = .lt := by decide +kernel

end HostProfile.Version
