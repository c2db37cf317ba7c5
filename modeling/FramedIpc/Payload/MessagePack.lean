import FramedIpc.Payload.Binary
import FramedIpc.Payload.Fields
import FramedIpc.Real.Layout

/-!
# The MessagePack Format

Every value begins with a byte that says what it is. Integers, texts and
counts are written in the smallest form that holds them, non-negative
integers always as naturals. Records and variants are mappings from names.
Bytes after a value are left alone.

Reading is more generous than writing: any form of an integer will do that is
in range, a record may be an array of its fields or have positions for keys,
and a byte string stands for a text or for a list of numbers. A byte string
for a whole value that nothing is known of, and an extension, are refused.

## Main definitions

* `MessagePack.encode`: The bytes of a value.
* `MessagePack.Head`: What the front of a value says.
* `MessagePack.decode`: A value of a shape off the front of some bytes.
-/

namespace FramedIpc.Payload.MessagePack

/-- The bytes of a natural. -/
def natural (n : Nat) : Bytes :=
  if n < 128 then [UInt8.ofNat n]
  else if n < 256 then 0xcc :: bigEndian 1 n
  else if n < 65536 then 0xcd :: bigEndian 2 n
  else if n < 4294967296 then 0xce :: bigEndian 4 n
  else 0xcf :: bigEndian 8 n

/-- The bytes of an integer. -/
def integer (i : Int) : Bytes :=
  if 0 ≤ i then natural i.toNat
  else if -32 ≤ i then [UInt8.ofNat (twosComplement 1 i)]
  else if -128 ≤ i then 0xd0 :: bigEndian 1 (twosComplement 1 i)
  else if -32768 ≤ i then 0xd1 :: bigEndian 2 (twosComplement 2 i)
  else if -2147483648 ≤ i then 0xd2 :: bigEndian 4 (twosComplement 4 i)
  else 0xd3 :: bigEndian 8 (twosComplement 8 i)

/-- The bytes of a text. -/
def text (s : String) : Bytes :=
  let bytes := Text.utf8 s
  let n := bytes.length
  let head :=
    if n < 32 then [UInt8.ofNat (0xa0 + n)]
    else if n < 256 then 0xd9 :: bigEndian 1 n
    else if n < 65536 then 0xda :: bigEndian 2 n
    else 0xdb :: bigEndian 4 n
  head ++ bytes

/-- The head of an array. -/
def arrayHead (n : Nat) : Bytes :=
  if n < 16 then [UInt8.ofNat (0x90 + n)]
  else if n < 65536 then 0xdc :: bigEndian 2 n
  else 0xdd :: bigEndian 4 n

/-- The head of a mapping. -/
def mapHead (n : Nat) : Bytes :=
  if n < 16 then [UInt8.ofNat (0x80 + n)]
  else if n < 65536 then 0xde :: bigEndian 2 n
  else 0xdf :: bigEndian 4 n

mutual

/-- The bytes of a value. -/
def encode : Datum → Option Bytes
  | .unit => some [0xc0]
  | .boolean value => some [if value then 0xc3 else 0xc2]
  | .unsigned _ value => some (natural value)
  | .signed _ value => some (integer value)
  | .single bits => some (0xca :: bigEndian 4 bits.toNat)
  | .double bits => some (0xcb :: bigEndian 8 bits.toNat)
  | .character value => some (text value.toString)
  | .text value => some (text value)
  | .absent => some [0xc0]
  | .present value => encode value
  | .sequence items => (encodeAll items).map (arrayHead items.length ++ ·)
  | .tuple items => (encodeAll items).map (arrayHead items.length ++ ·)
  | .mapping entries => (encodeEntries entries).map (mapHead entries.length ++ ·)
  | .record fields => (encodeFields fields).map (mapHead fields.length ++ ·)
  | .variant _ name none => some (text name)
  | .variant _ name (some body) => (encode body).map fun bytes => mapHead 1 ++ (text name ++ bytes)
  | .unwritable => none

/-- The bytes of values one after another. -/
def encodeAll : List Datum → Option Bytes
  | [] => some []
  | item :: items => do
    let first ← encode item
    let rest ← encodeAll items
    return first ++ rest

/-- The bytes of entries, each key before its value. -/
def encodeEntries : List (Datum × Datum) → Option Bytes
  | [] => some []
  | (key, value) :: entries => do
    let first ← encode key
    let second ← encode value
    let rest ← encodeEntries entries
    return first ++ (second ++ rest)

/-- The bytes of fields, each name before its value. -/
def encodeFields : List (String × Datum) → Option Bytes
  | [] => some []
  | (name, value) :: fields => do
    let first ← encode value
    let rest ← encodeFields fields
    return text name ++ (first ++ rest)

end

/-- What the front of a value says. -/
inductive Head where
  | nil
  | boolean (value : Bool)
  | natural (value : Nat)
  /-- An integer in a form that has a sign. -/
  | integer (value : Int)
  | single (bits : UInt32)
  | double (bits : UInt64)
  | text (size : Nat)
  | bytes (size : Nat)
  | array (size : Nat)
  | map (size : Nat)
  | extension (size : Nat)
  deriving DecidableEq, Repr

/-- A head that goes on with a number of so many bytes. -/
def withNumber (size : Nat) (f : Nat → Head) (bs : Bytes) : Option (Head × Bytes) :=
  (takeBig? size bs).map fun r => (f r.1, r.2)

/-- A head that goes on with a number that has a sign. -/
def withSigned (size : Nat) (bs : Bytes) : Option (Head × Bytes) :=
  withNumber size (fun n => .integer (ofTwosComplement size n)) bs

/-- The head off the front. -/
def takeHead? : Bytes → Option (Head × Bytes)
  | [] => none
  | b :: bs =>
    if b < 0x80 then some (.natural b.toNat, bs)
    else if b < 0x90 then some (.map (b.toNat % 16), bs)
    else if b < 0xa0 then some (.array (b.toNat % 16), bs)
    else if b < 0xc0 then some (.text (b.toNat % 32), bs)
    -- The small negative integers are their own bytes with a sign.
    else if 0xe0 ≤ b then some (.integer (b.toNat - 256), bs)
    else match b with
      | 0xc0 => some (.nil, bs)
      | 0xc2 => some (.boolean false, bs)
      | 0xc3 => some (.boolean true, bs)
      | 0xc4 => withNumber 1 .bytes bs
      | 0xc5 => withNumber 2 .bytes bs
      | 0xc6 => withNumber 4 .bytes bs
      | 0xc7 => withNumber 1 .extension bs
      | 0xc8 => withNumber 2 .extension bs
      | 0xc9 => withNumber 4 .extension bs
      | 0xca => withNumber 4 (fun n => .single (UInt32.ofNat n)) bs
      | 0xcb => withNumber 8 (fun n => .double (UInt64.ofNat n)) bs
      | 0xcc => withNumber 1 .natural bs
      | 0xcd => withNumber 2 .natural bs
      | 0xce => withNumber 4 .natural bs
      | 0xcf => withNumber 8 .natural bs
      | 0xd0 => withSigned 1 bs
      | 0xd1 => withSigned 2 bs
      | 0xd2 => withSigned 4 bs
      | 0xd3 => withSigned 8 bs
      | 0xd4 => some (.extension 1, bs)
      | 0xd5 => some (.extension 2, bs)
      | 0xd6 => some (.extension 4, bs)
      | 0xd7 => some (.extension 8, bs)
      | 0xd8 => some (.extension 16, bs)
      | 0xd9 => withNumber 1 .text bs
      | 0xda => withNumber 2 .text bs
      | 0xdb => withNumber 4 .text bs
      | 0xdc => withNumber 2 .array bs
      | 0xdd => withNumber 4 .array bs
      | 0xde => withNumber 2 .map bs
      | 0xdf => withNumber 4 .map bs
      | _ => none

/-- How deep arrays and mappings may nest, and one more. -/
def depthLimit : Nat := 1024

/-- A text of `size` bytes off the front. -/
def takeText? (size : Nat) (bs : Bytes) : Option (String × Bytes) := do
  let (taken, bs) ← takeBytes? size bs
  let text ← Text.ofUtf8? taken
  return (text, bs)

/-- A text off the front, which may be a byte string. -/
def readText (bs : Bytes) : Option (String × Bytes) :=
  match takeHead? bs with
  | some (.text size, rest) => takeText? size rest
  | some (.bytes size, rest) => takeText? size rest
  | _ => none

/-- An integer off the front, whatever its form. -/
def readInteger (bs : Bytes) : Option (Int × Bytes) :=
  match takeHead? bs with
  | some (.natural n, rest) => some (n, rest)
  | some (.integer i, rest) => some (i, rest)
  | _ => none

/-- A value that is one of some integers. -/
def readRange (ofInt? : Int → Option Datum) : Reader := fun bs => do
  let (i, bs) ← readInteger bs
  let value ← ofInt? i
  return (value, bs)

/-- A real in thirty-two bits. Other numbers are rounded. -/
def readSingle : Reader := fun bs =>
  match takeHead? bs with
  | some (.single bits, rest) => some (.single bits, rest)
  | some (.double bits, rest) => some (.single (Real.narrow bits), rest)
  | some (.natural n, rest) => some (.single (UInt32.ofNat (Real.single.nearest n 1)), rest)
  | some (.integer i, rest) =>
    some (.single (UInt32.ofNat (Real.single.sign (i < 0) + Real.single.nearest i.natAbs 1)), rest)
  | _ => none

/-- A real in sixty-four bits. Integers are rounded. -/
def readDouble : Reader := fun bs =>
  match takeHead? bs with
  | some (.single bits, rest) => some (.double (Real.widen bits), rest)
  | some (.double bits, rest) => some (.double bits, rest)
  | some (.natural n, rest) => some (.double (Real.ofNat n), rest)
  | some (.integer i, rest) => some (.double (Real.ofInt i), rest)
  | _ => none

/-- A text of one character. -/
def readCharacter : Reader := fun bs =>
  match takeHead? bs with
  | some (.text size, rest) => do
    let (text, rest) ← takeText? size rest
    match text.toList with
    | [c] => some (.character c, rest)
    | _ => none
  | _ => none

/-- Skip `n` values. -/
def skipTimes (skip : Bytes → Option Bytes) : Nat → Bytes → Option Bytes
  | 0, bs => some bs
  | n + 1, bs =>
    match skip bs with
    | none => none
    | some rest => skipTimes skip n rest

/-- Skip a value of any kind. -/
def skip : Nat → Bytes → Option Bytes
  | 0, _ => none
  | depth + 1, bs =>
    match takeHead? bs with
    | none => none
    | some (.text size, rest) => (takeBytes? size rest).map Prod.snd
    | some (.bytes size, rest) => (takeBytes? size rest).map Prod.snd
    | some (.extension size, rest) => (takeBytes? (size + 1) rest).map Prod.snd
    | some (.array size, rest) => if depth = 0 then none else skipTimes (skip depth) size rest
    | some (.map size, rest) => if depth = 0 then none else skipTimes (skip depth) (2 * size) rest
    | some (_, rest) => some rest

/-- What stands for one of several names: a position, or the bytes of a name. -/
inductive Key where
  | position (n : Nat)
  | name (bytes : Bytes)

/-- What stands for a name, off the front. -/
def readKey (bs : Bytes) : Option (Key × Bytes) :=
  match takeHead? bs with
  | some (.natural n, rest) => some (.position n, rest)
  | some (.text size, rest) => (takeBytes? size rest).map fun r => (.name r.1, r.2)
  | some (.bytes size, rest) => (takeBytes? size rest).map fun r => (.name r.1, r.2)
  | _ => none

/-- The position among some names that a key stands for. -/
def Key.positionIn? (names : List String) : Key → Option Nat
  | .position n => if n < names.length then some n else none
  | .name bytes => names.findIdx? fun name => Text.utf8 name == bytes

/-- `n` entries under texts, after those in `done`. -/
def readEntries (read : Reader) : Nat → List (String × Datum) → Bytes →
    Option (List (String × Datum) × Bytes)
  | 0, done, bs => some (done, bs)
  | n + 1, done, bs =>
    match readText bs with
    | none => none
    | some (key, bs) =>
      match read bs with
      | none => none
      | some (value, bs) => readEntries read n (putKey key value done) bs

/-- A mapping of which nothing is known: its first key has to be a text
    proper. -/
def readObject (read : Reader) (size : Nat) (bs : Bytes) : Option (Datum × Bytes) :=
  let proper := match takeHead? bs with
    | some (.text _, _) => true
    | _ => size == 0
  if proper then (readEntries read size [] bs).map fun r => (Datum.ofEntries r.1, r.2) else none

/-- A value of which nothing is known. -/
def readAnything : Nat → Reader
  | 0, _ => none
  | depth + 1, bs =>
    match takeHead? bs with
    | some (.nil, rest) => some (.unit, rest)
    | some (.boolean value, rest) => some (.boolean value, rest)
    | some (.natural n, rest) => some (.unsigned .eight n, rest)
    | some (.integer i, rest) => (Datum.ofInt? i).map fun value => (value, rest)
    | some (.single bits, rest) => some (Datum.ofReal (Real.widen bits), rest)
    | some (.double bits, rest) => some (Datum.ofReal bits, rest)
    | some (.text size, rest) => (takeText? size rest).map fun r => (.text r.1, r.2)
    | some (.array size, rest) =>
      if depth = 0 then none
      else (Reader.times (readAnything depth) size [] rest).map fun r => (.sequence r.1, r.2)
    | some (.map size, rest) =>
      if depth = 0 then none else readObject (readAnything depth) size rest
    | _ => none

/-- A record whose names stand before its values. -/
def readFields (depth : Nat) (fields : List (Field Reader)) : Nat → List Slot → Bytes →
    Option (List Slot × Bytes)
  | 0, slots, bs => some (slots, bs)
  | n + 1, slots, bs =>
    match readKey bs with
    | none => none
    | some (key, bs) =>
      match key.positionIn? (fields.map Field.name) with
      | none =>
        match skip depth bs with
        | none => none
        | some bs => readFields depth fields n slots bs
      | some position =>
        if isFilled slots position then none
        else
          match (fields[position]?).bind fun field => field.reader bs with
          | none => none
          | some (value, bs) => readFields depth fields n (fill slots position value) bs

/-- A record, as an array of its values or as a mapping. -/
def readRecord (depth : Nat) (fields : List (Field Reader)) : Reader := fun bs =>
  match takeHead? bs with
  | some (.array size, rest) =>
    if size ≠ fields.length then none
    else
      (Reader.inOrder (fields.map Field.reader) rest).map fun r =>
        (.record (named fields r.1), r.2)
  | some (.map size, rest) => do
    let (slots, rest) ← readFields depth fields size (emptySlots fields) rest
    let values ← collect? fields slots
    return (.record values, rest)
  | _ => none

/-- The alternative that a key stands for. -/
def chosen? (alternatives : List (Alternative Reader)) (bs : Bytes) :
    Option (Nat × Alternative Reader × Bytes) := do
  let (key, bs) ← readKey bs
  let position ← key.positionIn? (alternatives.map Alternative.name)
  let alternative ← alternatives[position]?
  return (position, alternative, bs)

/-- One of several alternatives: a name alone, or a mapping from its name to
    what it carries. -/
def readChoice (alternatives : List (Alternative Reader)) : Reader := fun bs =>
  match takeHead? bs with
  | some (.map size, rest) =>
    -- The one entry is the name of the alternative and what it carries.
    if size ≠ 1 then none
    else
      match chosen? alternatives rest with
      | none => none
      | some (position, ⟨name, none⟩, rest) =>
        match takeHead? rest with
        | some (.nil, rest) => some (.variant position name none, rest)
        | _ => none
      | some (position, ⟨name, some read⟩, rest) =>
        read.map (fun body => .variant position name (some body)) rest
  | _ =>
    match chosen? alternatives bs with
    | some (position, ⟨name, none⟩, rest) => some (.variant position name none, rest)
    | _ => none

/-- The elements of an array, or the bytes of a byte string as numbers. -/
def readSequence (item : Reader) : Reader := fun bs =>
  match takeHead? bs with
  | some (.array size, rest) => (item.times size [] rest).map fun r => (.sequence r.1, r.2)
  | some (.bytes size, rest) => do
    let (taken, rest) ← takeBytes? size rest
    -- Each byte is read as the number that it is.
    let items ← taken.mapM fun b => (item (natural b.toNat)).map Prod.fst
    return (.sequence items, rest)
  | _ => none

mutual

/-- A value of a shape off the front of some bytes, with so much depth left. -/
def decodeAt : Shape → Nat → Reader
  | .unit, _ => fun bs =>
    match takeHead? bs with
    | some (.nil, rest) => some (.unit, rest)
    | _ => none
  | .boolean, _ => fun bs =>
    match takeHead? bs with
    | some (.boolean value, rest) => some (.boolean value, rest)
    | _ => none
  | .unsigned width, _ => readRange (Datum.ofUnsigned? width)
  | .signed width, _ => readRange (Datum.ofSigned? width)
  | .single, _ => readSingle
  | .double, _ => readDouble
  | .character, _ => readCharacter
  | .text, _ => fun bs => (readText bs).map fun r => (.text r.1, r.2)
  | .option value, depth => fun bs =>
    match takeHead? bs with
    | some (.nil, rest) => some (.absent, rest)
    | _ => (decodeAt value depth).map .present bs
  | .sequence item, depth => readSequence (decodeAt item (depth - 1))
  | .tuple items, depth => fun bs =>
    match takeHead? bs with
    | some (.array size, rest) =>
      if size ≠ items.length then none
      else (Reader.inOrder (readersAt items (depth - 1)) rest).map fun r => (.tuple r.1, r.2)
    | _ => none
  | .mapping value, depth => fun bs =>
    match takeHead? bs with
    | some (.map size, rest) =>
      (readEntries (decodeAt value (depth - 1)) size [] rest).map fun r =>
        (Datum.ofEntries r.1, r.2)
    | _ => none
  | .record fields, depth => readRecord (depth - 1) (fieldReadersAt fields (depth - 1))
  | .choice variants, depth => readChoice (alternativeReadersAt variants depth)
  | .anything, depth => readAnything depth

/-- The readers of some shapes. -/
def readersAt : List Shape → Nat → List Reader
  | [], _ => []
  | shape :: shapes, depth => decodeAt shape depth :: readersAt shapes depth

/-- The readers of some fields. -/
def fieldReadersAt : List (String × Shape) → Nat → List (Field Reader)
  | [], _ => []
  | (name, shape) :: fields, depth =>
    ⟨name, shape.mayBeMissing, decodeAt shape depth⟩ :: fieldReadersAt fields depth

/-- The readers of some alternatives. -/
def alternativeReadersAt : List (String × Option Shape) → Nat → List (Alternative Reader)
  | [], _ => []
  | (name, none) :: variants, depth => ⟨name, none⟩ :: alternativeReadersAt variants depth
  | (name, some shape) :: variants, depth =>
    ⟨name, some (decodeAt shape depth)⟩ :: alternativeReadersAt variants depth

end

/-- A value of a shape off the front of some bytes. -/
def decode (shape : Shape) : Reader := decodeAt shape depthLimit

end FramedIpc.Payload.MessagePack
