import HostProfile.Toml.Basic
import HostProfile.Text.Hex

/-!
# Scalars without quotes

A boolean, a number or a moment in time is written as one run of letters, digits and the signs
`+ - _ . :`. A date and a time of day may also be joined by a space.
-/

namespace HostProfile.Toml

/-- May stand in a scalar without quotes. -/
def isScalarChar (c : Char) : Bool :=
  c.isAlphanum || c == '+' || c == '-' || c == '_' || c == '.' || c == ':'

/-- The digits without the underscores, each of which has to stand between two digits. -/
def digits? (isDigit : Char → Bool) : List Char → Option (List Char)
  | [] => none
  | [c] => if isDigit c then some [c] else none
  | c :: '_' :: rest => if isDigit c then (c :: ·) <$> digits? isDigit rest else none
  | c :: rest => if isDigit c then (c :: ·) <$> digits? isDigit rest else none

/-- The number that decimal digits give. -/
def ofDecimal (ds : List Char) : Nat := ds.foldl (fun n c => 10 * n + (c.toNat - 0x30)) 0

/-- Decimal digits of which the first is zero only when it is the only one. -/
def wholeDigits? (cs : List Char) : Option (List Char) :=
  (digits? Char.isDigit cs).filter fun ds => ds.length == 1 || ds.head? != some '0'

/-- The text without its sign, if it has one, and whether that is a minus. -/
def splitSign : List Char → Bool × List Char
  | '-' :: rest => (true, rest)
  | '+' :: rest => (false, rest)
  | cs => (false, cs)

/-- Integers have 64 bits. -/
def inRange (n : Int) : Bool := Int64.minValue.toInt ≤ n && n ≤ Int64.maxValue.toInt

/-- The number of a text in base `2 ^ bits`. -/
def ofRadix? (bits : Nat) (cs : List Char) : Option Nat := do
  let ds ← digits? (fun c => (Text.hexDigit? c).any (· < Nat.pow 2 bits)) cs
  return ds.foldl (fun n c => Nat.pow 2 bits * n + (Text.hexDigit? c).getD 0) 0

/-- An integer, in base 16, 8 or 2 behind a mark, or in base 10. Only the last has a sign. -/
def integer? (cs : List Char) : Option Int :=
  let n : Option Int :=
    match cs with
    | '0' :: 'x' :: rest => Int.ofNat <$> ofRadix? 4 rest
    | '0' :: 'o' :: rest => Int.ofNat <$> ofRadix? 3 rest
    | '0' :: 'b' :: rest => Int.ofNat <$> ofRadix? 1 rest
    | cs => do
      let (negative, unsigned) := splitSign cs
      let n := ofDecimal (← wholeDigits? unsigned)
      return if negative then -n else n
  n.filter inRange

/-- The digits of a number with a fraction or an exponent, and the power of ten that they are
multiplied by. -/
def decimal? (cs : List Char) : Option (List Char × Int) := do
  let isPart (c : Char) : Bool := c.isDigit || c == '_'
  let whole ← wholeDigits? (cs.takeWhile isPart)
  let rest := cs.dropWhile isPart
  let (fraction, rest) ←
    match rest with
    | '.' :: rest => do
      let fraction ← digits? Char.isDigit (rest.takeWhile isPart)
      pure (fraction, rest.dropWhile isPart)
    | _ => pure ([], rest)
  let shift : Int := fraction.length
  match rest with
  | [] => if fraction.isEmpty then none else some (whole ++ fraction, -shift)
  | e :: rest =>
    if e == 'e' || e == 'E' then do
      let (negative, unsigned) := splitSign rest
      let n : Int := ofDecimal (← digits? Char.isDigit unsigned)
      return (whole ++ fraction, (if negative then -n else n) - shift)
    else none

/-- The least number that is rounded beyond the range of doubles. -/
def doubleLimit : Nat := Nat.pow 2 1024 - Nat.pow 2 970

/-- Whether the digits times the power of ten are beyond the range of doubles. The number of
digits decides for all but the powers next to the limit, so that no large power is computed. -/
def overflows (digits : List Char) (power : Int) : Bool :=
  let significant := digits.dropWhile (· == '0')
  let size := significant.length + power
  !significant.isEmpty &&
    (309 < size ||
      size == 309 && doubleLimit * Nat.pow 10 (-power).toNat ≤
        ofDecimal significant * Nat.pow 10 power.toNat)

/-- Whether the text is a number with a fraction or an exponent, infinity or no number. A positive
number has to be in the range of doubles. -/
def isFloat (cs : List Char) : Bool :=
  let (negative, unsigned) := splitSign cs
  unsigned == ['i', 'n', 'f'] || unsigned == ['n', 'a', 'n'] ||
    match decimal? unsigned with
    | some (digits, power) => negative || !overflows digits power
    | none => false

/-- Two digits that give a number from `least` to `most`. -/
def isPair (least most : Nat) (a b : Char) : Bool :=
  a.isDigit && b.isDigit && least ≤ ofDecimal [a, b] && ofDecimal [a, b] ≤ most

/-- The number of days of a month. -/
def daysOf (year month : Nat) : Nat :=
  if month == 2 then
    if year % 4 == 0 && (year % 100 != 0 || year % 400 == 0) then 29 else 28
  else if month == 4 || month == 6 || month == 9 || month == 11 then 30
  else 31

/-- Whether the text is a day of the calendar. -/
def isDate : List Char → Bool
  | [a, b, c, d, '-', m, n, '-', x, y] =>
    let year := [a, b, c, d]
    year.all Char.isDigit && isPair 1 12 m n &&
      isPair 1 (daysOf (ofDecimal year) (ofDecimal [m, n])) x y
  | _ => false

/-- The text without a fraction of a second, if it begins with one. -/
def dropFraction : List Char → List Char
  | '.' :: d :: rest => if d.isDigit then rest.dropWhile Char.isDigit else '.' :: d :: rest
  | cs => cs

/-- Whether the text is an offset from universal time. -/
def isOffset : List Char → Bool
  | [z] => z == 'Z' || z == 'z'
  | [sign, a, b, ':', c, d] => (sign == '+' || sign == '-') && isPair 0 23 a b && isPair 0 59 c d
  | _ => false

/-- Whether the text is a time of day, to which `zoned` admits an offset. -/
def isTime (zoned : Bool) : List Char → Bool
  | a :: b :: ':' :: c :: d :: ':' :: e :: f :: rest =>
    isPair 0 23 a b && isPair 0 59 c d && isPair 0 60 e f &&
      let rest := dropFraction rest
      rest.isEmpty || zoned && isOffset rest
  | _ => false

/-- Whether the text is a date, a time of day or both. -/
def isMoment (cs : List Char) : Bool :=
  isDate cs || isTime false cs ||
    match cs.drop 10 with
    | t :: time => (t == 'T' || t == 't') && isDate (cs.take 10) && isTime true time
    | [] => false

/-- The scalar of a run. -/
def bare? (cs : List Char) : Option Toml :=
  if cs == ['t', 'r', 'u', 'e'] then some (.bool true)
  else if cs == ['f', 'a', 'l', 's', 'e'] then some (.bool false)
  else if isMoment cs then some (.moment (String.ofList cs))
  else if isFloat cs then some (.float (String.ofList cs))
  else .int <$> integer? cs

/-- The scalar without quotes at the front, and what follows it. -/
def run? (cs : List Char) : Option (Toml × List Char) :=
  let run := cs.takeWhile isScalarChar
  let rest := cs.dropWhile isScalarChar
  let time := (rest.drop 1).takeWhile isScalarChar
  if run.isEmpty then none
  else if isDate run && rest.head? == some ' ' && !time.isEmpty then
    if isTime true time then
      some (.moment (String.ofList (run ++ ' ' :: time)), (rest.drop 1).dropWhile isScalarChar)
    else none
  else (bare? run).map (·, rest)

theorem length_lt_of_run? {cs rest : List Char} {v : Toml} (h : run? cs = some (v, rest)) :
    rest.length < cs.length := by
  have whole : (cs.takeWhile isScalarChar).length + (cs.dropWhile isScalarChar).length =
      cs.length := by
    rw [← List.length_append, List.takeWhile_append_dropWhile]
  have inner := (List.dropWhile_sublist isScalarChar
    (l := (cs.dropWhile isScalarChar).drop 1)).length_le
  simp only [List.length_drop] at inner
  unfold run? at h
  simp only at h
  split at h
  · simp at h
  · next taken =>
    have : 0 < (cs.takeWhile isScalarChar).length := by
      simpa [List.length_pos_iff] using taken
    split at h
    · split at h
      · simp only [Option.some.injEq, Prod.mk.injEq] at h
        rw [← h.2]
        omega
      · simp at h
    · obtain ⟨_, _, eq⟩ := Option.map_eq_some_iff.mp h
      simp only [Prod.mk.injEq] at eq
      rw [← eq.2]
      omega

end HostProfile.Toml
