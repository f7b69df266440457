import HostProfile.Text.Hex
import HostProfile.Toml.Basic

/-!
# Writing text and keys

Text is written in the first form that can show it without escapes: between double quotes, between
single quotes, over several lines between three double quotes, and likewise between three single
quotes. Text that no form shows is escaped between double quotes. A key is written bare where it
can be, and otherwise on one line in the first form that can show it. A tab stands in the way of no
form, although it is escaped between double quotes.
-/

namespace HostProfile.Toml

/-- A control character. -/
def isControl (c : Char) : Bool := c.toNat < 0x20 || c.toNat == 0x7F

/-- A control character that a line of text can hold in an escape only. -/
def needsEscape (c : Char) : Bool := isControl c && c != '\t'

/-- Whether there are `n` quotes in a row; `row` stand before the text. -/
def hasRow (quote : Char) (n : Nat) : (row : Nat) → List Char → Bool
  | row, [] => n ≤ row
  | row, c :: rest => n ≤ row || hasRow quote n (if c == quote then row + 1 else 0) rest

/-- A character in an escape. -/
def escaped (c : Char) : List Char :=
  if c.toNat == 0x08 then ['\\', 'b']
  else if c == '\t' then ['\\', 't']
  else if c == '\n' then ['\\', 'n']
  else if c.toNat == 0x0C then ['\\', 'f']
  else if c == '\r' then ['\\', 'r']
  else if c == '"' then ['\\', '"']
  else if c == '\\' then ['\\', '\\']
  else ['\\', 'u'] ++ (Text.paddedHex 4 c.toNat).map Char.toUpper

/-- The text with escapes as it stands between double quotes. -/
def escapeLine (cs : List Char) : List Char :=
  cs.flatMap fun c => if isControl c || c == '"' || c == '\\' then escaped c else [c]

/-- The text with escapes as it stands between three double quotes. Line breaks stay, and of the
quotes in a row every third one is escaped; `row` of them stand before the text. -/
def escapeLines : (row : Nat) → List Char → List Char
  | _, [] => []
  | row, c :: rest =>
    if c == '"' then
      if row == 2 then escaped c ++ escapeLines 0 rest else c :: escapeLines (row + 1) rest
    else if c == '\n' then c :: escapeLines 0 rest
    else if isControl c || c == '\\' then escaped c ++ escapeLines 0 rest
    else c :: escapeLines 0 rest

/-- The text between quotes. -/
def enclose (quote cs : List Char) : String := String.ofList (quote ++ cs ++ quote)

/-- What follows the opening quotes of text over several lines: a line break, when there are any. -/
def opening (cs : List Char) : List Char := if cs.contains '\n' then ['\n'] else []

/-- The written form of text. -/
def spellText (text : String) : String :=
  let cs := text.toList
  let plain := !cs.any fun c => needsEscape c && c != '\n'
  let unescaped := plain && !cs.contains '\\'
  if unescaped && !cs.contains '"' && !cs.contains '\n' then enclose ['"'] (escapeLine cs)
  else if plain && !cs.contains '\x27' && !cs.contains '\n' then enclose ['\x27'] cs
  else if unescaped && !hasRow '"' 3 0 cs then
    enclose ['"', '"', '"'] (opening cs ++ escapeLines 0 cs)
  else if plain && !hasRow '\x27' 3 0 cs then
    enclose ['\x27', '\x27', '\x27'] (opening cs ++ cs)
  else if cs.contains '\n' then enclose ['"', '"', '"'] (opening cs ++ escapeLines 0 cs)
  else enclose ['"'] (escapeLine cs)

/-- The written form of a key. -/
def spellKey (key : String) : String :=
  let cs := key.toList
  let plain := !cs.any needsEscape
  if !cs.isEmpty && cs.all isBare then key
  else if plain && !cs.contains '\\' && !cs.contains '"' then enclose ['"'] (escapeLine cs)
  else if plain && !cs.contains '\x27' then enclose ['\x27'] cs
  else enclose ['"'] (escapeLine cs)

/-- Texts as an array: up to one on the line of its key, more of them on a line each. -/
def spellTexts : List String → String
  | [] => "[]"
  | [text] => "[" ++ spellText text ++ "]"
  | texts => "[\n" ++ String.join (texts.map fun text => "    " ++ spellText text ++ ",\n") ++ "]"

/-- A table: its header, and a line for each name with its value as written. -/
def spellTable (name : String) (entries : List (String × String)) : String :=
  "[" ++ spellKey name ++ "]\n" ++
    String.join (entries.map fun e => spellKey e.1 ++ " = " ++ e.2 ++ "\n")

end HostProfile.Toml
