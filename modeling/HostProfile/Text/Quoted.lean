import HostProfile.Text.Hex

/-!
# Characters in messages

How a message shows a character that it must not print as it stands: between single quotes, with
an escape for a control character and for every blank other than the space.
-/

namespace HostProfile.Text

/-- A refused character as messages show it: NUL, tab, line feed and carriage return have escapes
of their own, the space and `=` stand for themselves, any other blank is given by its number. -/
def quotedChar (c : Char) : String :=
  let body :=
    if c == Char.ofNat 0 then "\\0"
    else if c == '\t' then "\\t"
    else if c == '\n' then "\\n"
    else if c == '\r' then "\\r"
    else if c == ' ' || c == '=' then c.toString
    else "\\u\x7b" ++ String.ofList (hex c.toNat) ++ "\x7d"
  "\x27" ++ body ++ "\x27"

end HostProfile.Text
