import HostProfile.Json.Basic

/-!
# Reading JSON

`Json.parse?` accepts the texts of RFC 8259 and nothing else. Each reader hands back the
characters behind its construct with a proof that there are fewer than a bound, by which the
readers end.
-/

namespace HostProfile.Json.Reader

/-- Characters left over, fewer than `n`. -/
abbrev Below (n : Nat) : Type := { rest : List Char // rest.length < n }

/-- May stand between the parts of a text. -/
def isSpace (c : Char) : Bool := c == ' ' || c == '\t' || c == '\n' || c == '\r'

/-- The characters from the first on that is no space. -/
def skipSpace (cs : List Char) : List Char := cs.dropWhile isSpace

theorem length_skipSpace_le (cs : List Char) : (skipSpace cs).length ≤ cs.length :=
  (List.dropWhile_sublist isSpace).length_le

theorem length_lt_of_skipSpace {cs rest : List Char} {c : Char} (h : skipSpace cs = c :: rest) :
    rest.length < cs.length := by
  have le := length_skipSpace_le cs
  rw [h, List.length_cons] at le
  omega

/-- The character that a letter behind a backslash stands for. -/
def unescape? (c : Char) : Option Char :=
  if c == '"' || c == '\\' || c == '/' then some c
  else if c == 'b' then some (Char.ofNat 0x08)
  else if c == 'f' then some (Char.ofNat 0x0C)
  else if c == 'n' then some '\n'
  else if c == 'r' then some '\r'
  else if c == 't' then some '\t'
  else none

/-- The string up to its closing quote, and what follows it; `acc` holds its characters so far, last
first. A character beyond U+FFFF is escaped as a pair of surrogates. -/
def stringTail? (acc : List Char) : List Char → Option (String × List Char)
  | [] => none
  | '"' :: rest => some (String.ofList acc.reverse, rest)
  | '\\' :: 'u' :: a :: b :: c :: d :: rest =>
    match Text.ofHex? [a, b, c, d] with
    | some unit =>
      if 0xD800 ≤ unit && unit < 0xDC00 then
        match rest with
        | '\\' :: 'u' :: a :: b :: c :: d :: rest =>
          match Text.ofHex? [a, b, c, d] with
          | some low =>
            if 0xDC00 ≤ low && low < 0xE000 then
              let code := 0x10000 + (unit - 0xD800) * 0x400 + (low - 0xDC00)
              stringTail? (Char.ofNat code :: acc) rest
            else none
          | none => none
        | _ => none
      else if 0xDC00 ≤ unit && unit < 0xE000 then none
      else stringTail? (Char.ofNat unit :: acc) rest
    | none => none
  | '\\' :: c :: rest =>
    match unescape? c with
    | some d => stringTail? (d :: acc) rest
    | none => none
  | c :: rest => if c.toNat < 0x20 then none else stringTail? (c :: acc) rest

theorem length_lt_of_stringTail? {acc cs rest : List Char} {s : String}
    (h : stringTail? acc cs = some (s, rest)) : rest.length < cs.length := by
  fun_induction stringTail? acc cs <;>
    simp only [List.length_cons, List.length_nil] <;> grind

/-- The digits at the front. -/
def digits (cs : List Char) : List Char := cs.takeWhile Char.isDigit

/-- The number that decimal digits give. -/
def ofDigits (ds : List Char) : Nat := ds.foldl (fun n c => 10 * n + (c.toNat - 0x30)) 0

/-- The fraction at the front, or nothing; a point needs a digit behind it. -/
def fraction? : List Char → Option (List Char)
  | '.' :: rest => if digits rest = [] then none else some ('.' :: digits rest)
  | _ => some []

/-- The exponent at the front, or nothing; its mark needs a digit behind it. -/
def exponent? : List Char → Option (List Char)
  | c :: rest =>
    if c == 'e' || c == 'E' then
      let sign := rest.take (if rest.head? == some '+' || rest.head? == some '-' then 1 else 0)
      let ds := digits (rest.drop sign.length)
      if ds = [] then none else some (c :: sign ++ ds)
    else some []
  | [] => some []

/-- The number at the front and the characters of its text. The integer part has no leading
zeros. -/
def number? (cs : List Char) : Option (Json × List Char) := do
  let sign := cs.take (if cs.head? == some '-' then 1 else 0)
  let ds := digits (cs.drop sign.length)
  if ds = [] || (ds.head? == some '0' && ds.length != 1) then none
  else
    let whole := sign ++ ds
    let fraction ← fraction? (cs.drop whole.length)
    let exponent ← exponent? (cs.drop (whole ++ fraction).length)
    let text := whole ++ fraction ++ exponent
    if fraction = [] && exponent = [] && (sign = [] || ofDigits ds != 0) then
      return (.int (if sign = [] then ofDigits ds else -ofDigits ds), text)
    else return (.real (String.ofList text), text)

/-- The literal name or the number at the front, and what follows it. -/
def scalar? : List Char → Option (Json × List Char)
  | 'n' :: 'u' :: 'l' :: 'l' :: rest => some (.null, rest)
  | 't' :: 'r' :: 'u' :: 'e' :: rest => some (.bool true, rest)
  | 'f' :: 'a' :: 'l' :: 's' :: 'e' :: rest => some (.bool false, rest)
  | c :: rest =>
    match number? (c :: rest) with
    | some (v, text) => some (v, rest.drop (text.length - 1))
    | none => none
  | [] => none

theorem length_lt_of_scalar? {cs rest : List Char} {v : Json}
    (h : scalar? cs = some (v, rest)) : rest.length < cs.length := by
  revert h
  fun_cases scalar? cs <;> simp only [List.length_cons, List.length_nil] <;> grind

mutual

/-- Reads a value and the space in front of it. -/
def value (cs : List Char) : Option (Json × Below cs.length) :=
  match h : skipSpace cs with
  | [] => none
  | c :: rest =>
    have lt := length_lt_of_skipSpace h
    if c == '"' then
      match hs : stringTail? [] rest with
      | some (s, after) => some (.str s, ⟨after, Nat.lt_trans (length_lt_of_stringTail? hs) lt⟩)
      | none => none
    else if c == '[' then
      match h' : skipSpace rest with
      | ']' :: after => some (.arr [], ⟨after, Nat.lt_trans (length_lt_of_skipSpace h') lt⟩)
      | _ => elements cs.length [] rest lt
    else if c == '\x7b' then
      match h' : skipSpace rest with
      | '\x7d' :: after => some (.obj [], ⟨after, Nat.lt_trans (length_lt_of_skipSpace h') lt⟩)
      | _ => members cs.length [] rest lt
    else
      match hv : scalar? (c :: rest) with
      | some (v, after) => some (v, ⟨after, Nat.lt_of_lt_of_le (length_lt_of_scalar? hv) lt⟩)
      | none => none
termination_by (cs.length, 0)
decreasing_by
  · exact Prod.Lex.left _ _ lt
  · exact Prod.Lex.left _ _ lt

/-- Reads the elements of an array up to its end; `acc` holds those so far, last first. -/
def elements (n : Nat) (acc : List Json) (cs : List Char) (h : cs.length < n) :
    Option (Json × Below n) := do
  let (v, ⟨rest, shorter⟩) ← value cs
  match h' : skipSpace rest with
  | ',' :: more =>
    have lt := Nat.lt_trans (length_lt_of_skipSpace h') shorter
    elements n (v :: acc) more (Nat.lt_trans lt h)
  | ']' :: after =>
    have lt := Nat.lt_trans (length_lt_of_skipSpace h') shorter
    return (.arr (v :: acc).reverse, ⟨after, Nat.lt_trans lt h⟩)
  | _ => none
termination_by (cs.length, 1)
decreasing_by
  · exact Prod.Lex.right _ Nat.zero_lt_one
  · exact Prod.Lex.left _ _ lt

/-- Reads the members of an object up to its end; `acc` holds those so far, last first. -/
def members (n : Nat) (acc : List (String × Json)) (cs : List Char) (h : cs.length < n) :
    Option (Json × Below n) :=
  match h₁ : skipSpace cs with
  | '"' :: inside =>
    match h₂ : stringTail? [] inside with
    | some (name, behind) =>
      match h₃ : skipSpace behind with
      | ':' :: text => do
        have named := Nat.lt_trans (length_lt_of_skipSpace h₃)
          (Nat.lt_trans (length_lt_of_stringTail? h₂) (length_lt_of_skipSpace h₁))
        let (v, ⟨rest, shorter⟩) ← value text
        have lt := Nat.lt_trans shorter named
        match h₄ : skipSpace rest with
        | ',' :: more =>
          have lt := Nat.lt_trans (length_lt_of_skipSpace h₄) lt
          members n ((name, v) :: acc) more (Nat.lt_trans lt h)
        | '\x7d' :: after =>
          have lt := Nat.lt_trans (length_lt_of_skipSpace h₄) lt
          return (.obj ((name, v) :: acc).reverse, ⟨after, Nat.lt_trans lt h⟩)
        | _ => none
      | _ => none
    | none => none
  | _ => none
termination_by (cs.length, 1)
decreasing_by
  · exact Prod.Lex.left _ _ named
  · exact Prod.Lex.left _ _ lt

end

end HostProfile.Json.Reader

namespace HostProfile.Json

/-- The value whose text this is. -/
def parse? (text : String) : Option Json := do
  let (v, ⟨rest, _⟩) ← Reader.value text.toList
  if Reader.skipSpace rest = [] then some v else none

end HostProfile.Json
