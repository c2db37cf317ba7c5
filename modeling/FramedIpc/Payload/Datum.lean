import FramedIpc.Real.Layout
import FramedIpc.Text.Utf8

/-!
# Data

What a payload carries. A `Datum` says enough about itself to be written in
every format: a number knows its width, which some formats write and others
do not, a record knows the names of its fields, and a variant both its name
and its index.

A `Shape` says what a reader expects. Reading needs it because no format
tells everything: bincode tells nothing at all, and in JSON a record may be
written as a list.

## Main definitions

* `Width`: How many bytes an integer takes.
* `Datum`: A value.
* `Shape`: What a reader expects.
* `Datum.ofInt?`: The datum of an integer, if it is in range.
* `putKey`: Put an entry into entries that ascend by key.
-/

namespace FramedIpc.Payload

/-- How many bytes an integer takes. -/
inductive Width where
  | one
  | two
  | four
  | eight
  deriving DecidableEq, Repr

/-- The count of bytes. -/
def Width.bytes : Width → Nat
  | .one => 1
  | .two => 2
  | .four => 4
  | .eight => 8

/-- One more than the largest natural of a width. -/
def Width.bound (w : Width) : Nat := Nat.pow 256 w.bytes

/-- A value. -/
inductive Datum where
  /-- The value that says nothing. -/
  | unit
  | boolean (value : Bool)
  | unsigned (width : Width) (value : Nat)
  | signed (width : Width) (value : Int)
  /-- The bits of a real of thirty-two bits. -/
  | single (bits : UInt32)
  /-- The bits of a real of sixty-four bits. -/
  | double (bits : UInt64)
  | character (value : Char)
  | text (value : String)
  /-- No value, where there may be one. -/
  | absent
  /-- A value, where there may be none. -/
  | present (value : Datum)
  | sequence (items : List Datum)
  | tuple (items : List Datum)
  | mapping (entries : List (Datum × Datum))
  | record (fields : List (String × Datum))
  /-- One of several alternatives, with what it carries. -/
  | variant (index : Nat) (name : String) (body : Option Datum)
  /-- A value that refuses to be written. -/
  | unwritable
  deriving Repr, Inhabited

/-- What a reader expects. -/
inductive Shape where
  | unit
  | boolean
  | unsigned (width : Width)
  | signed (width : Width)
  | single
  | double
  | character
  | text
  | option (value : Shape)
  | sequence (item : Shape)
  | tuple (items : List Shape)
  /-- Entries whose keys are texts. -/
  | mapping (value : Shape)
  | record (fields : List (String × Shape))
  | choice (variants : List (String × Option Shape))
  /-- Whatever the format tells of its own accord. -/
  | anything
  deriving Repr, Inhabited

/-- The natural of a width, if it is in range. -/
def Datum.ofUnsigned? (w : Width) (i : Int) : Option Datum :=
  if 0 ≤ i && i < w.bound then some (.unsigned w i.toNat) else none

/-- The integer of a width, if it is in range. -/
def Datum.ofSigned? (w : Width) (i : Int) : Option Datum :=
  if -(w.bound : Int) ≤ 2 * i && 2 * i < w.bound then some (.signed w i) else none

/-- The datum that a format's own integer is read as where no shape is
    expected. Non-negative ones count as naturals. -/
def Datum.ofInt? (i : Int) : Option Datum :=
  if 0 ≤ i then ofUnsigned? .eight i else ofSigned? .eight i

/-- The datum that a format's own real is read as where no shape is expected.
    What is not finite says nothing. -/
def Datum.ofReal (bits : UInt64) : Datum :=
  if Real.isFinite bits then .double bits else .unit

/-- Put an entry into entries that ascend by key. An entry with the same key
    gives way. -/
def putKey {α : Type} (key : String) (value : α) :
    List (String × α) → List (String × α)
  | [] => [(key, value)]
  | (k, v) :: rest =>
    if key < k then (key, value) :: (k, v) :: rest
    else if key = k then (key, value) :: rest
    else (k, v) :: putKey key value rest

/-- The mapping of entries under texts. -/
def Datum.ofEntries (entries : List (String × Datum)) : Datum :=
  .mapping (entries.map fun e => (.text e.1, e.2))

/-- Whether a value of this shape may be left out of a record. -/
def Shape.mayBeMissing : Shape → Bool
  | .option _ => true
  | _ => false

end FramedIpc.Payload
