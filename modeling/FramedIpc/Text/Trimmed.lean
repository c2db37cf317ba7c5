import FramedIpc.Text.Classes

/-!
# Trimmed Text

A value typed on a command line may carry white space around it, of any kind
that Unicode knows.

## Main definitions

* `trimmed`: A text without the white space at its two ends.
-/

namespace FramedIpc.Text

/-- Drop the characters at the front that are white space. -/
def dropBlank (cs : List Char) : List Char :=
  cs.dropWhile fun c => blank.holds c

/-- A text without the white space at its two ends. -/
def trimmed (s : String) : String :=
  String.ofList (dropBlank (dropBlank s.toList).reverse).reverse

end FramedIpc.Text
