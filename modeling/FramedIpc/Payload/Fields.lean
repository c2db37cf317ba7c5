import FramedIpc.Payload.Datum

/-!
# Readers of Parts

A reader takes a value off the front of some bytes. The readers of a format
follow the shape that is expected; what they share is here: taking a value
several times over, and putting a record together.

Formats that name the fields of a record may give them in any order, leave
out those that need not be there, and add others. A `Slot` waits for the
value of one field; a record is read by filling slots as names turn up and
looking at the end which are still empty.

## Main definitions

* `Reader`: Takes a value off the front of some bytes.
* `Reader.times`: A reader so many times over.
* `Field`: A field of a record and the reader of its value.
* `Slot`: A field's value once it has turned up.
* `collect?`: The fields of a record, if none is missing.
-/

namespace FramedIpc.Payload

/-- Takes a value off the front of some bytes, or refuses them. -/
abbrev Reader := Bytes → Option (Datum × Bytes)

namespace Reader

/-- A reader `n` times over, after the values in `done`, last first. -/
def times (read : Reader) : Nat → List Datum → Bytes → Option (List Datum × Bytes)
  | 0, done, bs => some (done.reverse, bs)
  | n + 1, done, bs =>
    match read bs with
    | none => none
    | some (value, rest) => times read n (value :: done) rest

/-- Readers one after another. -/
def inOrder : List Reader → Bytes → Option (List Datum × Bytes)
  | [], bs => some ([], bs)
  | read :: reads, bs => do
    let (value, bs) ← read bs
    let (values, bs) ← inOrder reads bs
    return (value :: values, bs)

/-- A reader whose value goes through `f`. -/
def map (f : Datum → Datum) (read : Reader) : Reader := fun bs =>
  (read bs).map fun r => (f r.1, r.2)

end Reader

/-- A field of a record and the reader of its value. -/
structure Field (ρ : Type) where
  name : String
  /-- Whether the field may be left out. -/
  mayBeMissing : Bool
  reader : ρ

/-- An alternative of a choice and the reader of what it carries. -/
structure Alternative (ρ : Type) where
  name : String
  reader : Option ρ

/-- The place of a field's value, once it has turned up. -/
abbrev Slot := Option Datum

section Slots

variable {ρ : Type}

/-- The position of the field with a name. -/
def positionOf? (name : String) (fields : List (Field ρ)) : Option Nat :=
  fields.findIdx? fun field => field.name == name

/-- The position of the alternative with a name. -/
def alternativeOf? (name : String) (alternatives : List (Alternative ρ)) : Option Nat :=
  alternatives.findIdx? fun alternative => alternative.name == name

/-- Empty slots for some fields. -/
def emptySlots (fields : List (Field ρ)) : List Slot :=
  fields.map fun _ => none

/-- Whether the slot at a position has its value already. -/
def isFilled (slots : List Slot) (position : Nat) : Bool :=
  (slots[position]?.getD none).isSome

/-- Put a value into the slot at a position. -/
def fill (slots : List Slot) (position : Nat) (value : Datum) : List Slot :=
  slots.set position (some value)

/-- The fields in their order, if each has turned up or may be missing. -/
def collect? : List (Field ρ) → List Slot → Option (List (String × Datum))
  | [], _ => some []
  | field :: fields, slots => do
    let value ← match slots.headD none with
      | some value => some value
      | none => if field.mayBeMissing then some .absent else none
    let rest ← collect? fields slots.tail
    return (field.name, value) :: rest

/-- The fields of a record whose values came in order. -/
def named (fields : List (Field ρ)) (values : List Datum) : List (String × Datum) :=
  (fields.map Field.name).zip values

end Slots

end FramedIpc.Payload
