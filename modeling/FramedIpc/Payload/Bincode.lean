import FramedIpc.Payload.Binary
import FramedIpc.Payload.Fields

/-!
# The Bincode Format

Numbers have their full width, the least significant byte first; texts,
sequences and mappings begin with their count in eight bytes; a variant
begins with its index in four. Nothing else is written: records, tuples and
values that say nothing add no byte of their own. Bytes after a value are
left alone.

The format tells nothing about what it holds, so a value can be written
whatever it is, but read only where a shape is expected.

## Main definitions

* `Bincode.encode`: The bytes of a value.
* `Bincode.decode`: A value of a shape off the front of some bytes.
-/

namespace FramedIpc.Payload.Bincode

/-- The bytes of a count. -/
def count (n : Nat) : Bytes := littleEndian 8 n

mutual

/-- The bytes of a value. -/
def encode : Datum → Option Bytes
  | .unit => some []
  | .boolean value => some [if value then 1 else 0]
  | .unsigned width value => some (littleEndian width.bytes value)
  | .signed width value => some (littleEndian width.bytes (twosComplement width.bytes value))
  | .single bits => some (littleEndian 4 bits.toNat)
  | .double bits => some (littleEndian 8 bits.toNat)
  | .character value => some (String.utf8EncodeChar value)
  | .text value =>
    let bytes := Text.utf8 value
    some (count bytes.length ++ bytes)
  | .absent => some [0]
  | .present value => (encode value).map (1 :: ·)
  | .sequence items => (encodeAll items).map (count items.length ++ ·)
  | .tuple items => encodeAll items
  | .mapping entries => (encodeEntries entries).map (count entries.length ++ ·)
  -- The reader knows the names.
  | .record fields => encodeFields fields
  | .variant index _ none => some (littleEndian 4 index)
  | .variant index _ (some body) => (encode body).map (littleEndian 4 index ++ ·)
  | .unwritable => none

/-- The bytes of values one after another. -/
def encodeAll : List Datum → Option Bytes
  | [] => some []
  | item :: items => do
    let first ← encode item
    let rest ← encodeAll items
    return first ++ rest

/-- The bytes of entries, each key before its value. -/
def encodeEntries : List (Datum × Datum) → Option Bytes
  | [] => some []
  | (key, value) :: entries => do
    let first ← encode key
    let second ← encode value
    let rest ← encodeEntries entries
    return first ++ (second ++ rest)

/-- The bytes of fields, their names left out. -/
def encodeFields : List (String × Datum) → Option Bytes
  | [] => some []
  | (_, value) :: fields => do
    let first ← encode value
    let rest ← encodeFields fields
    return first ++ rest

end

/-- A count off the front. -/
def takeCount? (bs : Bytes) : Option (Nat × Bytes) := takeLittle? 8 bs

/-- A text off the front. -/
def takeText? (bs : Bytes) : Option (String × Bytes) := do
  let (size, bs) ← takeCount? bs
  let (taken, bs) ← takeBytes? size bs
  let text ← Text.ofUtf8? taken
  return (text, bs)

/-- One byte that is zero or one. -/
def takeBit? : Bytes → Option (Bool × Bytes)
  | 0 :: rest => some (false, rest)
  | 1 :: rest => some (true, rest)
  | _ => none

/-- So many entries under texts, after those in `done`. -/
def readEntries (read : Reader) : Nat → List (String × Datum) → Bytes →
    Option (List (String × Datum) × Bytes)
  | 0, done, bs => some (done, bs)
  | n + 1, done, bs =>
    match takeText? bs with
    | none => none
    | some (key, bs) =>
      match read bs with
      | none => none
      | some (value, bs) => readEntries read n (putKey key value done) bs

/-- The alternative with an index. -/
def readAlternative (alternatives : List (Alternative Reader)) (index : Nat) : Reader := fun bs =>
  match alternatives[index]? with
  | none => none
  | some ⟨name, none⟩ => some (.variant index name none, bs)
  | some ⟨name, some read⟩ => read.map (fun body => .variant index name (some body)) bs

mutual

/-- A value of a shape off the front of some bytes. -/
def decode : Shape → Reader
  | .unit => fun bs => some (.unit, bs)
  | .boolean => fun bs => (takeBit? bs).map fun r => (.boolean r.1, r.2)
  | .unsigned width => fun bs =>
    (takeLittle? width.bytes bs).map fun r => (.unsigned width r.1, r.2)
  | .signed width => fun bs =>
    (takeLittle? width.bytes bs).map fun r =>
      (.signed width (ofTwosComplement width.bytes r.1), r.2)
  | .single => fun bs => (takeLittle? 4 bs).map fun r => (.single (UInt32.ofNat r.1), r.2)
  | .double => fun bs => (takeLittle? 8 bs).map fun r => (.double (UInt64.ofNat r.1), r.2)
  | .character => fun bs =>
    match Text.firstScalar bs with
    | .scalar c rest => some (.character c, rest)
    | _ => none
  | .text => fun bs => (takeText? bs).map fun r => (.text r.1, r.2)
  | .option value => fun bs =>
    match takeBit? bs with
    | none => none
    | some (false, rest) => some (.absent, rest)
    | some (true, rest) => (decode value).map .present rest
  | .sequence item => fun bs =>
    match takeCount? bs with
    | none => none
    | some (size, rest) =>
      (Reader.times (decode item) size [] rest).map fun r => (.sequence r.1, r.2)
  | .tuple items => fun bs =>
    (Reader.inOrder (readers items) bs).map fun r => (.tuple r.1, r.2)
  | .mapping value => fun bs =>
    match takeCount? bs with
    | none => none
    | some (size, rest) =>
      (readEntries (decode value) size [] rest).map fun r => (Datum.ofEntries r.1, r.2)
  | .record fields => fun bs =>
    let fields := fieldReaders fields
    (Reader.inOrder (fields.map Field.reader) bs).map fun r => (.record (named fields r.1), r.2)
  | .choice variants => fun bs =>
    match takeLittle? 4 bs with
    | none => none
    | some (index, rest) => readAlternative (alternativeReaders variants) index rest
  | .anything => fun _ => none

/-- The readers of some shapes. -/
def readers : List Shape → List Reader
  | [] => []
  | shape :: shapes => decode shape :: readers shapes

/-- The readers of some fields. -/
def fieldReaders : List (String × Shape) → List (Field Reader)
  | [] => []
  | (name, shape) :: fields => ⟨name, shape.mayBeMissing, decode shape⟩ :: fieldReaders fields

/-- The readers of some alternatives. -/
def alternativeReaders : List (String × Option Shape) → List (Alternative Reader)
  | [] => []
  | (name, none) :: variants => ⟨name, none⟩ :: alternativeReaders variants
  | (name, some shape) :: variants => ⟨name, some (decode shape)⟩ :: alternativeReaders variants

end

end FramedIpc.Payload.Bincode
