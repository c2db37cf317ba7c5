import FramedIpc.Text.Classes

/-!
# Columns of a Terminal

How much room a text takes on a line, which is neither its bytes nor its
characters: an ideograph takes two columns and an accent that sits on the
letter before it takes none.

## Main definitions

* `columns`: The columns that a text takes.
* `padTo`: A text filled up with spaces to a number of columns.
-/

namespace FramedIpc.Text

/-- The columns that one character takes. A control takes one. -/
def charColumns (c : Char) : Nat :=
  -- Below the first mark or symbol of another width nothing needs looking up.
  if c.toNat < 0xB0 then 1
  else if extending.holds c || invisible.holds c then 0
  else if wide.holds c then 2
  else 1

/-- The columns that a text takes. -/
def columns (s : String) : Nat :=
  s.toList.foldl (fun n c => n + charColumns c) 0

/-- A text followed by the spaces that fill `n` columns. A text that is
    already as wide is left as it is. -/
def padTo (n : Nat) (s : String) : String :=
  s ++ String.ofList (List.replicate (n - columns s) ' ')

end FramedIpc.Text
