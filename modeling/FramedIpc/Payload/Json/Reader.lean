import FramedIpc.Payload.Fields
import FramedIpc.Payload.Json.Token

/-!
# Values Read from JSON

A value is read by the shape that is expected. Where the text is JSON but not
of that shape, the mistake is found at the token that shows it, before the
rest of the text is looked at.

Integers are accepted as reals, but no real as an integer, and no text as a
number. A record may be an object, with its fields in any order and others
besides, or a list of its fields in order. A mapping in which a key comes
twice keeps the later value; a record in which a field comes twice is
refused.

Lists and objects may nest `depthLimit` deep, less one.

## Main definitions

* `decodeAt`: A value of a shape off the front of some bytes.
* `decode`: The value of a shape that some bytes are.
-/

namespace FramedIpc.Payload.Json

/-- Takes a value off the front of some bytes. -/
abbrev ValueReader := Bytes → Except Category (Datum × Bytes)

/-- The least depth to which lists and objects may not nest. -/
def depthLimit : Nat := 128

/-- Go into a list or an object, if there is depth left for it. -/
def nested {α : Type} (depth : Nat) (inside : Except Category α) : Except Category α :=
  if depth ≤ 1 then .error .malformed else inside

/-- A value that a token makes, if it makes one of the shape that is wanted. -/
def readMade (value? : Token → Option Datum) : ValueReader := fun bs =>
  match readToken bs with
  | .error e => .error e
  | .ok (token, rest) =>
    match value? token with
    | some value => .ok (value, rest)
    | none => .error .data

/-- The integer that a number is. -/
def Number.toInt? : Number → Option Int
  | natural n => some n
  | negative i => some i
  | real _ => none

/-- A value that is one of some integers. -/
def readRange (ofInt? : Int → Option Datum) : ValueReader :=
  readMade fun token => match token with
    | .number n => n.toInt?.bind ofInt?
    | _ => none

/-- A number as a real of a layout, integers rounded. -/
def Number.toReal (l : Real.Layout) : Number → Nat
  | natural n => l.nearest n 1
  | negative i => l.sign true + l.nearest i.natAbs 1
  | real bits => if l = Real.double then bits.toNat else Real.double.convert l bits.toNat

/-- A number as a datum of its own kind. -/
def Number.datum : Number → Datum
  | natural n => .unsigned .eight n
  | negative i => .signed .eight i
  | real bits => Datum.ofReal bits

/-- The character that a text is, if it is one. -/
def soleCharacter? (s : String) : Option Datum :=
  match s.toList with
  | [c] => some (.character c)
  | _ => none

/-- Items of a list up to its end, after those in `done`, so many at most. -/
def readItems (read : ValueReader) : Nat → Bool → List Datum → Bytes →
    Except Category (List Datum × Bytes)
  | 0, _, _, _ => .error .eof
  | n + 1, first, done, bs =>
    match nextItem first bs with
    | .error e => .error e
    | .ok (false, rest) => .ok (done.reverse, rest)
    | .ok (true, rest) =>
      match read rest with
      | .error e => .error e
      | .ok (value, rest) => readItems read n false (value :: done) rest

/-- As many items as there are readers, and the end of the list. -/
def readEach : Bool → List ValueReader → Bytes → Except Category (List Datum × Bytes)
  | _, [], bs => (expect 93 bs).map ([], ·)
  | first, read :: reads, bs =>
    match nextItem first bs with
    | .error e => .error e
    | .ok (false, _) => .error .data
    | .ok (true, rest) => do
      let (value, rest) ← read rest
      let (values, rest) ← readEach false reads rest
      return (value :: values, rest)

/-- Entries of an object up to its end, after those in `done`, so many at
    most. -/
def readEntries (read : ValueReader) : Nat → Bool → List (String × Datum) → Bytes →
    Except Category (List (String × Datum) × Bytes)
  | 0, _, _, _ => .error .eof
  | n + 1, first, done, bs =>
    match nextKey first bs with
    | .error e => .error e
    | .ok (false, rest) => .ok (done, rest)
    | .ok (true, rest) => do
      let (key, rest) ← readText rest
      let rest ← readColon rest
      let (value, rest) ← read rest
      readEntries read n false (putKey key value done) rest

/-- Fields of a record up to the end of its object, so many at most. -/
def readFields (fields : List (Field ValueReader)) : Nat → Bool → List Slot → Bytes →
    Except Category (List Slot × Bytes)
  | 0, _, _, _ => .error .eof
  | n + 1, first, slots, bs =>
    match nextKey first bs with
    | .error e => .error e
    | .ok (false, rest) => .ok (slots, rest)
    | .ok (true, rest) => do
      let (key, rest) ← readText rest
      match positionOf? key fields with
      | none =>
        let rest ← readColon rest >>= skipValue
        readFields fields n false slots rest
      | some position =>
        match fields[position]? with
        | none => .error .data
        | some field =>
          -- A second value is refused before it is looked at.
          if isFilled slots position then .error .data
          else
            let (value, rest) ← readColon rest >>= field.reader
            readFields fields n false (fill slots position value) rest

/-- A list of which every item is read alike. -/
def readList (depth : Nat) (read : ValueReader) (bs : Bytes) : Except Category (Datum × Bytes) :=
  nested depth ((readItems read (bs.length + 1) true [] bs).map fun r => (.sequence r.1, r.2))

/-- An object of which every value is read alike. -/
def readObject (depth : Nat) (read : ValueReader) (bs : Bytes) : Except Category (Datum × Bytes) :=
  nested depth
    ((readEntries read (bs.length + 1) true [] bs).map fun r => (Datum.ofEntries r.1, r.2))

/-- A value of which nothing is known. -/
def readAnything : Nat → ValueReader
  | 0, _ => .error .malformed
  | depth + 1, bs =>
    match readToken bs with
    | .error e => .error e
    | .ok (.null, rest) => .ok (.unit, rest)
    | .ok (.boolean value, rest) => .ok (.boolean value, rest)
    | .ok (.number value, rest) => .ok (value.datum, rest)
    | .ok (.text value, rest) => .ok (.text value, rest)
    | .ok (.list, rest) => readList (depth + 1) (readAnything depth) rest
    | .ok (.object, rest) => readObject (depth + 1) (readAnything depth) rest

/-- A record, as an object or as a list. -/
def readRecord (depth : Nat) (fields : List (Field ValueReader)) : ValueReader := fun bs =>
  match readToken bs with
  | .error e => .error e
  | .ok (.list, rest) =>
    nested depth do
      let (values, rest) ← readEach true (fields.map Field.reader) rest
      return (.record (named fields values), rest)
  | .ok (.object, rest) =>
    nested depth do
      let (slots, rest) ← readFields fields (rest.length + 1) true (emptySlots fields) rest
      match collect? fields slots with
      | some values => return (.record values, rest)
      | none => .error .data
  | .ok _ => .error .data

/-- What an alternative carries, and the end of the object around it. -/
def readBody (index : Nat) (alternative : Alternative ValueReader) (bs : Bytes) :
    Except Category (Datum × Bytes) := do
  let bs ← readColon bs
  let (value, bs) ← match alternative.reader with
    | some read => (read bs).map fun r => (Datum.variant index alternative.name (some r.1), r.2)
    | none =>
      match readToken bs with
      | .error e => .error e
      | .ok (.null, rest) => .ok (Datum.variant index alternative.name none, rest)
      | .ok _ => .error .data
  let bs ← expect 125 bs
  return (value, bs)

/-- The alternative that a token names. -/
def namedBy (alternatives : List (Alternative ValueReader)) (token : Token) :
    Except Category (Nat × Alternative ValueReader) :=
  match token with
  | .text name =>
    match alternatives.zipIdx.find? fun a => a.1.name == name with
    | some (alternative, index) => .ok (index, alternative)
    | none => .error .data
  | _ => .error .data

/-- One of several alternatives: a name alone, or an object from its name to
    what it carries. Anything else that could begin a value is no JSON here. -/
def readChoice (depth : Nat) (alternatives : List (Alternative ValueReader)) : ValueReader :=
  fun bs =>
    match dropBlanks bs with
    | [] => .error .eof
    | b :: rest =>
      if b = 123 then
        nested depth do
          let (token, rest) ← readToken rest
          let (index, alternative) ← namedBy alternatives token
          readBody index alternative rest
      else if b = 34 then do
        let (name, rest) ← readText rest
        let (index, alternative) ← namedBy alternatives (.text name)
        match alternative.reader with
        -- A name alone stands only for an alternative that carries nothing.
        | none => return (.variant index alternative.name none, rest)
        | some _ => .error .data
      else .error .malformed

/-- A value that may be missing. -/
def readOption (read : ValueReader) : ValueReader := fun bs =>
  match dropBlanks bs with
  | [] => .error .eof
  | b :: rest =>
    if b = 110 then (readNamed .null "ull" rest).map fun r => (.absent, r.2)
    else (read (b :: rest)).map fun r => (.present r.1, r.2)

mutual

/-- A value of a shape off the front of some bytes, with so much depth left. -/
def decodeAt : Shape → Nat → ValueReader
  | .unit, _ => readMade fun token => match token with
    | .null => some .unit
    | _ => none
  | .boolean, _ => readMade fun token => match token with
    | .boolean value => some (.boolean value)
    | _ => none
  | .unsigned width, _ => readRange (Datum.ofUnsigned? width)
  | .signed width, _ => readRange (Datum.ofSigned? width)
  | .single, _ => readMade fun token => match token with
    | .number n => some (.single (UInt32.ofNat (n.toReal Real.single)))
    | _ => none
  | .double, _ => readMade fun token => match token with
    | .number n => some (.double (UInt64.ofNat (n.toReal Real.double)))
    | _ => none
  | .character, _ => readMade fun token => match token with
    | .text s => soleCharacter? s
    | _ => none
  | .text, _ => readMade fun token => match token with
    | .text s => some (.text s)
    | _ => none
  | .option value, depth => readOption (decodeAt value depth)
  | .sequence item, depth => fun bs =>
    match readToken bs with
    | .error e => .error e
    | .ok (.list, rest) => readList depth (decodeAt item (depth - 1)) rest
    | .ok _ => .error .data
  | .tuple items, depth => fun bs =>
    match readToken bs with
    | .error e => .error e
    | .ok (.list, rest) =>
      nested depth
        ((readEach true (readersAt items (depth - 1)) rest).map fun r => (.tuple r.1, r.2))
    | .ok _ => .error .data
  | .mapping value, depth => fun bs =>
    match readToken bs with
    | .error e => .error e
    | .ok (.object, rest) => readObject depth (decodeAt value (depth - 1)) rest
    | .ok _ => .error .data
  | .record fields, depth => readRecord depth (fieldReadersAt fields (depth - 1))
  | .choice variants, depth => readChoice depth (alternativeReadersAt variants (depth - 1))
  | .anything, depth => readAnything depth

/-- The readers of some shapes. -/
def readersAt : List Shape → Nat → List ValueReader
  | [], _ => []
  | shape :: shapes, depth => decodeAt shape depth :: readersAt shapes depth

/-- The readers of some fields. -/
def fieldReadersAt : List (String × Shape) → Nat → List (Field ValueReader)
  | [], _ => []
  | (name, shape) :: fields, depth =>
    ⟨name, shape.mayBeMissing, decodeAt shape depth⟩ :: fieldReadersAt fields depth

/-- The readers of some alternatives. -/
def alternativeReadersAt : List (String × Option Shape) → Nat → List (Alternative ValueReader)
  | [], _ => []
  | (name, none) :: variants, depth => ⟨name, none⟩ :: alternativeReadersAt variants depth
  | (name, some shape) :: variants, depth =>
    ⟨name, some (decodeAt shape depth)⟩ :: alternativeReadersAt variants depth

end

/-- The value of a shape that some bytes are. -/
def decode (shape : Shape) (bs : Bytes) : Except Category Datum :=
  match decodeAt shape depthLimit bs with
  | .error e => .error e
  | .ok (value, rest) => if (dropBlanks rest).isEmpty then .ok value else .error .malformed

end FramedIpc.Payload.Json
