import FramedIpc.Payload.Json.Text
import FramedIpc.Payload.Datum
import FramedIpc.Real.Shortest

/-!
# Printed JSON

A value is printed in one of two settings: on one line without a blank, or
with every item and every entry on a line of its own, two spaces deeper than
what holds it. Both print the same tokens.

Records are objects of their fields in order. A value that says nothing and a
value that is not there are both `null`, and a value that is there stands for
itself. A variant is its name, or an object from its name to what it carries.
Keys have to be texts.

## Main definitions

* `Setting`: On one line, or on lines of their own.
* `printed`: The text of a value.
* `encode`: Its bytes, on one line.
-/

namespace FramedIpc.Payload.Json

/-- How a value is set. -/
inductive Setting where
  /-- On one line. -/
  | line
  /-- Items on lines of their own, so deep. -/
  | indented (depth : Nat)
  deriving DecidableEq, Repr

namespace Setting

/-- The setting of items inside a value. -/
def inner : Setting → Setting
  | line => line
  | indented depth => indented (depth + 1)

/-- What goes before an item. -/
def lineBreak : Setting → List Char
  | line => []
  | indented depth => '\n' :: List.replicate (2 * depth) ' '

/-- What goes between a key and its value. -/
def colon : Setting → List Char
  | line => [':']
  | indented _ => [':', ' ']

/-- Items between commas, each after a break. -/
def separated (setting : Setting) : List (List Char) → List Char
  | [] => []
  | [item] => setting.lineBreak ++ item
  | item :: items => setting.lineBreak ++ item ++ ',' :: separated setting items

/-- Items between an opening and a closing mark. Nothing goes between the
    marks where there are no items. -/
def enclosed (setting : Setting) (opening closing : Char) : List (List Char) → List Char
  | [] => [opening, closing]
  | items => opening :: (setting.inner.separated items ++ setting.lineBreak ++ [closing])

/-- An entry of an object. -/
def entry (setting : Setting) (key : String) (value : List Char) : List Char :=
  quoted key ++ setting.colon ++ value

end Setting

/-- The text of a key, which has to be a text. -/
def key? : Datum → Except Category String
  | .text value => .ok value
  | _ => .error .malformed

mutual

/-- The text of a value. -/
def printed (setting : Setting) : Datum → Except Category (List Char)
  | .unit => .ok "null".toList
  | .boolean value => .ok (if value then "true".toList else "false".toList)
  | .unsigned _ value => .ok (toString value).toList
  | .signed _ value => .ok (toString value).toList
  | .single bits => .ok (Real.jsonText Real.single bits.toNat).toList
  | .double bits => .ok (Real.jsonText Real.double bits.toNat).toList
  | .character value => .ok (quoted (String.singleton value))
  | .text value => .ok (quoted value)
  | .absent => .ok "null".toList
  | .present value => printed setting value
  | .sequence items => (printedItems setting.inner items).map (setting.enclosed '[' ']')
  | .tuple items => (printedItems setting.inner items).map (setting.enclosed '[' ']')
  | .mapping entries => (printedEntries setting.inner entries).map (setting.enclosed '\x7b' '\x7d')
  | .record fields => (printedFields setting.inner fields).map (setting.enclosed '\x7b' '\x7d')
  | .variant _ name none => .ok (quoted name)
  | .variant _ name (some body) =>
    (printed setting.inner body).map fun text =>
      setting.enclosed '\x7b' '\x7d' [setting.entry name text]
  | .unwritable => .error .data

/-- The texts of values. -/
def printedItems (setting : Setting) : List Datum → Except Category (List (List Char))
  | [] => .ok []
  | item :: items => do
    let first ← printed setting item
    let rest ← printedItems setting items
    return first :: rest

/-- The texts of entries. -/
def printedEntries (setting : Setting) :
    List (Datum × Datum) → Except Category (List (List Char))
  | [] => .ok []
  | (key, value) :: entries => do
    let key ← key? key
    let first ← printed setting value
    let rest ← printedEntries setting entries
    return setting.entry key first :: rest

/-- The texts of fields. -/
def printedFields (setting : Setting) :
    List (String × Datum) → Except Category (List (List Char))
  | [] => .ok []
  | (name, value) :: fields => do
    let first ← printed setting value
    let rest ← printedFields setting fields
    return setting.entry name first :: rest

end

/-- The bytes of a value on one line. -/
def encode (value : Datum) : Except Category Bytes :=
  (printed .line value).map Text.utf8Chars

end FramedIpc.Payload.Json
