import HostProfile.Text.Blank

/-!
# Tokens of context expressions

A context expression is written with names, the operators `&&`, `||` and `!`, and parentheses. A
single `&` or `|` stands for the doubled one and a comma for `||`. Blanks separate tokens; any
other character is refused, and its place is counted in bytes of UTF-8.
-/

namespace HostProfile.Context

/-- A token of a context expression. -/
inductive Token where
  | name (text : String)
  | and
  | or
  | not
  | opening
  | closing
  deriving DecidableEq, Repr

/-- The token as messages show it. -/
def Token.quoted : Token → String
  | name text => "\x27" ++ text ++ "\x27"
  | and => "\x27&&\x27"
  | or => "\x27||\x27"
  | not => "\x27!\x27"
  | opening => "\x27(\x27"
  | closing => "\x27)\x27"

/-- Why a text is no context expression. -/
inductive SyntaxError where
  /-- No token starts with the character found `offset` bytes from the start. -/
  | unexpectedChar (c : Char) (offset : Nat)
  /-- No expression goes on with the token. -/
  | unexpectedToken (t : Token)
  /-- The token stands where a parenthesis had to be closed. -/
  | expectedClosing (found : Token)
  /-- The text ends before a parenthesis is closed. -/
  | unclosed
  /-- The text ends where an operand had to follow. -/
  | unexpectedEnd
  deriving DecidableEq, Repr

/-- The wording of the error. -/
def SyntaxError.message : SyntaxError → String
  | unexpectedChar c offset =>
    "unexpected character \x27" ++ c.toString ++ "\x27 at offset " ++ toString offset
  | unexpectedToken t => "unexpected " ++ t.quoted
  | expectedClosing found => "expected \x27)\x27, found " ++ found.quoted
  | unclosed => "unbalanced \x27(\x27"
  | unexpectedEnd => "unexpected end of expression"

/-- May stand in a context name: an ASCII letter or digit or one of `_ . : / + -`. -/
def isNameChar (c : Char) : Bool :=
  c.isAlphanum || c == '_' || c == '.' || c == ':' || c == '/' || c == '+' || c == '-'

/-- May begin a context name: every character of a name but `-`. -/
def isNameStart (c : Char) : Bool := isNameChar c && c != '-'

/-- A name that a context can have: it begins like a name, goes on like one, and is not one of
the constants `true` and `false`. -/
def isValidName (name : String) : Bool :=
  match name.toList with
  | [] => false
  | c :: rest => isNameStart c && rest.all isNameChar && name != "true" && name != "false"

/-- The tokens of the characters, which start `offset` bytes into the text. -/
def tokens (offset : Nat) : List Char → Except SyntaxError (List Token)
  | [] => .ok []
  | '(' :: rest => return .opening :: (← tokens (offset + 1) rest)
  | ')' :: rest => return .closing :: (← tokens (offset + 1) rest)
  | '!' :: rest => return .not :: (← tokens (offset + 1) rest)
  | ',' :: rest => return .or :: (← tokens (offset + 1) rest)
  | '|' :: '|' :: rest => return .or :: (← tokens (offset + 2) rest)
  | '|' :: rest => return .or :: (← tokens (offset + 1) rest)
  | '&' :: '&' :: rest => return .and :: (← tokens (offset + 2) rest)
  | '&' :: rest => return .and :: (← tokens (offset + 1) rest)
  | c :: rest =>
    if Text.isBlank c then tokens (offset + c.utf8Size) rest
    else if isNameStart c then do
      let more := rest.takeWhile isNameChar
      let after ← tokens (offset + 1 + more.length) (rest.dropWhile isNameChar)
      return .name (String.ofList (c :: more)) :: after
    else .error (.unexpectedChar c offset)
termination_by cs => cs.length
decreasing_by
  all_goals simp only [List.length_cons]
  all_goals
    have drop : (rest.dropWhile isNameChar).length ≤ rest.length :=
      (List.dropWhile_sublist _).length_le
    omega

/-- The tokens of a text. -/
def tokenize (text : String) : Except SyntaxError (List Token) := tokens 0 text.toList

end HostProfile.Context
