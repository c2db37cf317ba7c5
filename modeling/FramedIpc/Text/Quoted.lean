import FramedIpc.Text.Classes

/-!
# Quoted Text

How a text stands inside a message: in double quotes, so that where it ends
is plain, and with everything that would not show escaped, so that two
different texts never look the same.

## Main definitions

* `escape`: The written form of one character.
* `quoted`: The written form of a text.
-/

namespace FramedIpc.Text

/-- The digits of `n` to base sixteen, lower case and without leading zeros. -/
def hexDigits (n : Nat) : String :=
  String.ofList (Nat.toDigits 16 n)

/-- The written form of a character. A single quote needs no escape, since
    the text stands in double quotes. -/
def escape (c : Char) : String :=
  if c = '\x00' then "\\0"
  else if c = '\t' then "\\t"
  else if c = '\r' then "\\r"
  else if c = '\n' then "\\n"
  else if c = '"' then "\\\""
  else if c = '\\' then "\\\\"
  -- A mark that would attach to the quote before it does not show either.
  else if extending.holds c || hidden.holds c then
    "\\u\x7b" ++ hexDigits c.toNat ++ "\x7d"
  else c.toString

/-- A text in double quotes. -/
def quoted (s : String) : String :=
  "\"" ++ String.join (s.toList.map escape) ++ "\""

end FramedIpc.Text
