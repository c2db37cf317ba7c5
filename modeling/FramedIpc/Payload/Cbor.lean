import FramedIpc.Payload.Binary
import FramedIpc.Payload.Fields
import FramedIpc.Real.Layout

/-!
# The CBOR Format

Every value begins with a head: three bits that say what it is and a number
in the smallest of five forms. Reals take the smallest of three sizes that
keeps the value. Records are mappings from names, variants are a name or a
mapping from a name to what they carry. Bytes after a value are left alone.

A reader that knows what it wants skips the tags before it, accepts longer
heads than needed, and takes strings, arrays and mappings whose end is marked
instead of counted. It does not look for the end of an array that holds more
items than it wants: those are left for whoever reads on. A reader that knows
nothing accepts a tag only before the bytes of a large integer.

## Main definitions

* `Cbor.encode`: The bytes of a value.
* `Cbor.Head`: What the front of a value says.
* `Cbor.decode`: A value of a shape off the front of some bytes.
-/

namespace FramedIpc.Payload.Cbor

/-- A head with its number in the smallest form. -/
def head (major n : Nat) : Bytes :=
  let first (low : Nat) : UInt8 := UInt8.ofNat (major * 32 + low)
  if n < 24 then [first n]
  else if n < 256 then first 24 :: bigEndian 1 n
  else if n < 65536 then first 25 :: bigEndian 2 n
  else if n < 4294967296 then first 26 :: bigEndian 4 n
  else first 27 :: bigEndian 8 n

/-- The bytes of an integer. -/
def integer (i : Int) : Bytes :=
  if 0 ≤ i then head 0 i.toNat else head 1 (-1 - i).toNat

/-- The bytes of a text. -/
def text (s : String) : Bytes :=
  let bytes := Text.utf8 s
  head 3 bytes.length ++ bytes

/-- The bytes of a real, in the smallest size that keeps its bits. -/
def real (bits : Nat) : Bytes :=
  let short := Real.double.convert Real.half bits
  let middle := Real.double.convert Real.single bits
  if Real.half.convert Real.double short = bits then 0xf9 :: bigEndian 2 short
  else if Real.single.convert Real.double middle = bits then 0xfa :: bigEndian 4 middle
  else 0xfb :: bigEndian 8 bits

mutual

/-- The bytes of a value. -/
def encode : Datum → Option Bytes
  | .unit => some [0xf6]
  | .boolean value => some [if value then 0xf5 else 0xf4]
  | .unsigned _ value => some (head 0 value)
  | .signed _ value => some (integer value)
  | .single bits => some (real (Real.widen bits).toNat)
  | .double bits => some (real bits.toNat)
  | .character value => some (text value.toString)
  | .text value => some (text value)
  | .absent => some [0xf6]
  | .present value => encode value
  | .sequence items => (encodeAll items).map (head 4 items.length ++ ·)
  | .tuple items => (encodeAll items).map (head 4 items.length ++ ·)
  | .mapping entries => (encodeEntries entries).map (head 5 entries.length ++ ·)
  | .record fields => (encodeFields fields).map (head 5 fields.length ++ ·)
  | .variant _ name none => some (text name)
  | .variant _ name (some body) => (encode body).map fun bytes => head 5 1 ++ (text name ++ bytes)
  | .unwritable => none

/-- The bytes of values one after another. -/
def encodeAll : List Datum → Option Bytes
  | [] => some []
  | item :: items => do
    let first ← encode item
    let rest ← encodeAll items
    return first ++ rest

/-- The bytes of entries, each key before its value. -/
def encodeEntries : List (Datum × Datum) → Option Bytes
  | [] => some []
  | (key, value) :: entries => do
    let first ← encode key
    let second ← encode value
    let rest ← encodeEntries entries
    return first ++ (second ++ rest)

/-- The bytes of fields, each name before its value. -/
def encodeFields : List (String × Datum) → Option Bytes
  | [] => some []
  | (name, value) :: fields => do
    let first ← encode value
    let rest ← encodeFields fields
    return text name ++ (first ++ rest)

end

/-- What the front of a value says. A size is missing where the end is marked
    instead. -/
inductive Head where
  | natural (n : Nat)
  /-- The integer `-1 - n`. -/
  | negative (n : Nat)
  | bytes (size : Option Nat)
  | text (size : Option Nat)
  | array (size : Option Nat)
  | map (size : Option Nat)
  | tag (n : Nat)
  | simple (n : Nat)
  /-- A real, in sixty-four bits. -/
  | real (bits : Nat)
  /-- The mark of an end. -/
  | stop
  deriving DecidableEq, Repr

/-- The number of a head whose low bits are `low`. -/
def takeNumber? (low : Nat) (bs : Bytes) : Option (Nat × Bytes) :=
  if low < 24 then some (low, bs)
  else if low = 24 then takeBig? 1 bs
  else if low = 25 then takeBig? 2 bs
  else if low = 26 then takeBig? 4 bs
  else if low = 27 then takeBig? 8 bs
  else none

/-- The size in a head, unless the end is marked. -/
def takeSize? (low : Nat) (bs : Bytes) : Option (Option Nat × Bytes) :=
  if low = 31 then some (none, bs) else (takeNumber? low bs).map fun r => (some r.1, r.2)

/-- A head of the last major type: a simple value, a real, or the mark of an
    end. -/
def takeOther? (low : Nat) (bs : Bytes) : Option (Head × Bytes) :=
  if low = 31 then some (.stop, bs)
  else (takeNumber? low bs).map fun r =>
    (if low = 25 then .real (Real.half.convert Real.double r.1)
      else if low = 26 then .real (Real.single.convert Real.double r.1)
      else if low = 27 then .real r.1
      else .simple r.1, r.2)

/-- The head off the front. -/
def takeHead? : Bytes → Option (Head × Bytes)
  | [] => none
  | b :: bs =>
    let low := b.toNat % 32
    let number (f : Nat → Head) := (takeNumber? low bs).map fun r => (f r.1, r.2)
    let sized (f : Option Nat → Head) := (takeSize? low bs).map fun r => (f r.1, r.2)
    match b.toNat / 32 with
    | 0 => number .natural
    | 1 => number .negative
    | 2 => sized .bytes
    | 3 => sized .text
    | 4 => sized .array
    | 5 => sized .map
    | 6 => number .tag
    | _ => takeOther? low bs

/-- How deep arrays, mappings and variants may nest. -/
def depthLimit : Nat := 256

/-- The most bytes of a name or of a first key. -/
def nameLimit : Nat := 4096

/-- The tags of large integers. -/
def largeNatural : Nat := 2
def largeNegative : Nat := 3

/-- The first head that is no tag, looking at so many heads. -/
def untagged : Nat → Bytes → Option (Head × Bytes)
  | 0, _ => none
  | n + 1, bs =>
    match takeHead? bs with
    | some (.tag _, rest) => untagged n rest
    | other => other

/-- The first head that is no tag. Each head takes a byte, so all are seen. -/
def takeUntagged? (bs : Bytes) : Option (Head × Bytes) :=
  untagged (bs.length + 1) bs

/-- The pieces of a string whose end is marked, after those in `done`, with
    so many marks still to come, looking at so many heads. `size?` says of a
    head whether it begins a piece. -/
def pieces (size? : Head → Option (Option Nat)) : Nat → Nat → List Bytes → Bytes →
    Option (List Bytes × Bytes)
  | 0, _, _, _ => none
  | n + 1, marks, done, bs =>
    match takeHead? bs with
    | none => none
    | some (.stop, rest) =>
      -- A string of pieces may itself be a piece, so the marks are counted.
      if marks ≤ 1 then some (done.reverse, rest) else pieces size? n (marks - 1) done rest
    | some (head, rest) =>
      match size? head with
      | none => none
      | some none => pieces size? n (marks + 1) done rest
      | some (some size) =>
        match takeBytes? size rest with
        | none => none
        | some (piece, rest) => pieces size? n marks (piece :: done) rest

/-- The pieces of a string after its head. -/
def takePieces? (size? : Head → Option (Option Nat)) (size : Option Nat) (bs : Bytes) :
    Option (List Bytes × Bytes) :=
  match size with
  | some size => (takeBytes? size bs).map fun r => ([r.1], r.2)
  | none => pieces size? (bs.length + 1) 1 [] bs

/-- A byte string after its head. -/
def takeByteString? (size : Option Nat) (bs : Bytes) : Option (Bytes × Bytes) :=
  (takePieces? (fun h => match h with | .bytes size => some size | _ => none) size bs).map
    fun r => (r.1.flatten, r.2)

/-- A text after its head. Each piece has to be a text of its own. -/
def takeText? (size : Option Nat) (bs : Bytes) : Option (String × Bytes) := do
  let (parts, bs) ←
    takePieces? (fun h => match h with | .text size => some size | _ => none) size bs
  let texts ← parts.mapM Text.ofUtf8?
  return (String.join texts, bs)

/-- The natural that the bytes of a large integer are. -/
def largeValue? (bytes : Bytes) : Option Nat :=
  let significant := bytes.dropWhile (· == 0)
  if 16 < significant.length then none else some (ofBigEndian significant)

/-- The bytes of a large integer off the front. -/
def takeLarge? (bs : Bytes) : Option (Nat × Bytes) :=
  match takeHead? bs with
  | some (.bytes size, rest) => do
    let (bytes, rest) ← takeByteString? size rest
    let n ← largeValue? bytes
    return (n, rest)
  | _ => none

/-- An integer off the front, looking at so many heads. -/
def integerWithin : Nat → Bytes → Option (Int × Bytes)
  | 0, _ => none
  | n + 1, bs =>
    match takeHead? bs with
    | some (.natural value, rest) => some (value, rest)
    | some (.negative value, rest) => some (-1 - value, rest)
    | some (.tag tag, rest) =>
      if tag = largeNatural then (takeLarge? rest).map fun r => ((r.1 : Int), r.2)
      else if tag = largeNegative then (takeLarge? rest).map fun r => (-1 - (r.1 : Int), r.2)
      else integerWithin n rest
    | _ => none

/-- An integer off the front. -/
def readInteger (bs : Bytes) : Option (Int × Bytes) :=
  integerWithin (bs.length + 1) bs

/-- A value that is one of some integers. -/
def readRange (ofInt? : Int → Option Datum) : Reader := fun bs => do
  let (i, bs) ← readInteger bs
  let value ← ofInt? i
  return (value, bs)

/-- Whether a simple value says nothing. -/
def saysNothing (n : Nat) : Bool := n == 22 || n == 23

/-- A text off the front. -/
def readText (bs : Bytes) : Option (String × Bytes) :=
  match takeUntagged? bs with
  | some (.text size, rest) => takeText? size rest
  | _ => none

/-- A text of one character. -/
def readCharacter : Reader := fun bs =>
  match takeUntagged? bs with
  | some (.text (some size), rest) =>
    -- No character takes more bytes.
    if 4 < size then none
    else do
      let (text, rest) ← takeText? (some size) rest
      match text.toList with
      | [c] => some (.character c, rest)
      | _ => none
  | _ => none

/-- The bytes of a name off the front: a text, or bytes that spell one. -/
def readName (bs : Bytes) : Option (Bytes × Bytes) :=
  match takeUntagged? bs with
  | some (.text (some size), rest) =>
    if nameLimit < size then none
    else (takeText? (some size) rest).map fun r => (Text.utf8 r.1, r.2)
  | some (.bytes (some size), rest) => if nameLimit < size then none else takeBytes? size rest
  | _ => none

/-- The position of a name. -/
def position? (names : List String) (bytes : Bytes) : Option Nat :=
  names.findIdx? fun name => Text.utf8 name == bytes

/-- Whether a mark of an end is at the front. -/
def atStop? (bs : Bytes) : Option (Bool × Bytes) :=
  match takeHead? bs with
  | none => none
  | some (.stop, rest) => some (true, rest)
  | some _ => some (false, bs)

/-- Items up to the mark of an end, after those in `done`, so many at most. -/
def timesToStop (read : Reader) : Nat → List Datum → Bytes → Option (List Datum × Bytes)
  | 0, _, _ => none
  | n + 1, done, bs =>
    match atStop? bs with
    | none => none
    | some (true, rest) => some (done.reverse, rest)
    | some (false, bs) =>
      match read bs with
      | none => none
      | some (value, rest) => timesToStop read n (value :: done) rest

/-- The items of an array after its head. -/
def readItems (read : Reader) (size : Option Nat) (bs : Bytes) : Option (List Datum × Bytes) :=
  match size with
  | some size => read.times size [] bs
  | none => timesToStop read (bs.length + 1) [] bs

/-- As many items as there are readers, off an array that has at least as
    many. Items beyond them stay where they are. -/
def readFirst (reads : List Reader) (size : Option Nat) (bs : Bytes) :
    Option (List Datum × Bytes) :=
  match size with
  -- The count is known, so a short array is refused before it is read.
  | some size => if size < reads.length then none else Reader.inOrder reads bs
  | none =>
    let unlessStop (read : Reader) : Reader := fun bs =>
      match atStop? bs with
      | some (false, bs) => read bs
      | _ => none
    Reader.inOrder (reads.map unlessStop) bs

/-- Repeat a step that takes an entry, so many times or up to the mark of an
    end. -/
def entriesWithin {α : Type} (step : α → Bytes → Option (α × Bytes)) :
    Nat → Option Nat → α → Bytes → Option (α × Bytes)
  | 0, _, _, _ => none
  | n + 1, size, state, bs =>
    match size with
    | some 0 => some (state, bs)
    | some (left + 1) =>
      match step state bs with
      | none => none
      | some (state, bs) => entriesWithin step n (some left) state bs
    | none =>
      match atStop? bs with
      | none => none
      | some (true, rest) => some (state, rest)
      | some (false, bs) =>
        match step state bs with
        | none => none
        | some (state, bs) => entriesWithin step n none state bs

/-- The entries of a mapping after its head. Each takes a byte, so as many
    steps suffice. -/
def readEntriesWith {α : Type} (step : α → Bytes → Option (α × Bytes)) (size : Option Nat)
    (start : α) (bs : Bytes) : Option (α × Bytes) :=
  entriesWithin step (bs.length + 1) size start bs

/-- Take an entry under a text. -/
def textEntry (read : Reader) (done : List (String × Datum)) (bs : Bytes) :
    Option (List (String × Datum) × Bytes) := do
  let (key, bs) ← readText bs
  let (value, bs) ← read bs
  return (putKey key value done, bs)

/-- Skip a value of any kind, with what skips a nested one, if that may be. -/
def skipWith (nested : Option (Bytes → Option Bytes)) (bs : Bytes) : Option Bytes :=
  let unitReader : Option Reader :=
    nested.map fun skip bs => (skip bs).map fun rest => (.unit, rest)
  match takeHead? bs with
  | none => none
  | some (.natural _, rest) => some rest
  | some (.negative _, rest) => some rest
  | some (.real _, rest) => some rest
  | some (.simple n, rest) => if 20 ≤ n && n ≤ 23 then some rest else none
  | some (.stop, _) => none
  | some (.bytes size, rest) => (takeByteString? size rest).map Prod.snd
  | some (.text size, rest) => (takeText? size rest).map Prod.snd
  | some (.tag n, rest) =>
    if n = largeNatural || n = largeNegative then (takeLarge? rest).map Prod.snd
    else nested.bind fun skip => skip rest
  | some (.array size, rest) => do
    let read ← unitReader
    let (_, rest) ← readItems read size rest
    return rest
  | some (.map size, rest) => do
    let skip ← nested
    let (_, rest) ← readEntriesWith (fun () bs => do
      let bs ← skip bs
      let bs ← skip bs
      return ((), bs)) size () rest
    return rest

/-- Skip a value of any kind. -/
def skip : Nat → Bytes → Option Bytes
  | 0 => skipWith none
  | depth + 1 => skipWith (some (skip depth))

/-- A mapping of which nothing is known: its first key has to be a text whose
    size is counted and moderate. -/
def readObject (read : Reader) (size : Option Nat) (bs : Bytes) : Option (Datum × Bytes) :=
  let proper := match takeUntagged? bs with
    | some (.text (some size), _) => size ≤ nameLimit
    | some (.stop, _) => true
    | _ => size == some 0
  if size == some 0 || proper then
    (readEntriesWith (textEntry read) size [] bs).map fun r => (Datum.ofEntries r.1, r.2)
  else none

/-- A value of which nothing is known, with what reads a nested one, if that
    may be. -/
def readAnythingWith (nested : Option Reader) : Reader := fun bs =>
  match takeHead? bs with
  | some (.natural n, rest) => (Datum.ofInt? n).map fun value => (value, rest)
  | some (.negative n, rest) => (Datum.ofInt? (-1 - n)).map fun value => (value, rest)
  | some (.tag n, _) =>
    -- Any other tag would be lost in the value.
    if n = largeNatural || n = largeNegative then readRange Datum.ofInt? bs else none
  | some (.real bits, rest) => some (Datum.ofReal (UInt64.ofNat bits), rest)
  | some (.simple n, rest) =>
    if n = 20 then some (.boolean false, rest)
    else if n = 21 then some (.boolean true, rest)
    else if saysNothing n then some (.unit, rest)
    else none
  | some (.text size, rest) => (takeText? size rest).map fun r => (.text r.1, r.2)
  | some (.array size, rest) => do
    let read ← nested
    let (items, rest) ← readItems read size rest
    return (.sequence items, rest)
  | some (.map size, rest) => nested.bind fun read => readObject read size rest
  | _ => none

/-- A value of which nothing is known. -/
def readAnything : Nat → Reader
  | 0 => readAnythingWith none
  | depth + 1 => readAnythingWith (some (readAnything depth))

/-- Take a name and the value of its field, or skip what has another name. -/
def fieldEntry (depth : Nat) (fields : List (Field Reader)) (slots : List Slot) (bs : Bytes) :
    Option (List Slot × Bytes) := do
  let (name, bs) ← readName bs
  match position? (fields.map Field.name) name with
  | none => return (slots, ← skip depth bs)
  | some position =>
    if isFilled slots position then none
    else
      let field ← fields[position]?
      let (value, bs) ← field.reader bs
      return (fill slots position value, bs)

/-- The fields of a record after the head of its mapping. -/
def readFields (depth : Nat) (fields : List (Field Reader)) (size : Option Nat) :
    Reader := fun bs =>
  do
    let (slots, rest) ← readEntriesWith (fieldEntry depth fields) size (emptySlots fields) bs
    let values ← collect? fields slots
    return (.record values, rest)

/-- An alternative and how what it carries is read. -/
def chosen? (alternatives : List (Alternative Reader)) (bs : Bytes) :
    Option (Datum × Bytes) := do
  let (name, bs) ← readName bs
  let position ← position? (alternatives.map Alternative.name) name
  match ← alternatives[position]? with
  | ⟨name, none⟩ => return (.variant position name none, bs)
  | ⟨name, some read⟩ => read.map (fun body => .variant position name (some body)) bs

/-- One of several alternatives: a name, alone or in a mapping of one entry.
    What the alternative carries follows in either case; after one that
    carries nothing, nothing is taken. -/
def readChoice (alternatives : List (Alternative Reader)) : Reader := fun bs =>
  match takeUntagged? bs with
  | some (.map (some 1), rest) => chosen? alternatives rest
  | some (.text _, _) => chosen? alternatives bs
  | _ => none

/-- The elements of an array, or the bytes of a byte string as numbers. -/
def readSequence (depth : Nat) (item : Reader) : Reader := fun bs =>
  match takeUntagged? bs with
  | some (.array size, rest) =>
    if depth = 0 then none else (readItems item size rest).map fun r => (.sequence r.1, r.2)
  | some (.bytes size, rest) => do
    let (taken, rest) ← takeByteString? size rest
    let items ← taken.mapM fun b => (item (head 0 b.toNat)).map Prod.fst
    return (.sequence items, rest)
  | _ => none

/-- The items that an alternative carries: an array, and no tag before it. -/
def itemsBody (depth : Nat) (reads : List Reader) : Reader := fun bs =>
  match takeHead? bs with
  | some (.array size, rest) =>
    if depth = 0 then none else (readFirst reads size rest).map fun r => (.tuple r.1, r.2)
  | _ => none

/-- The fields that an alternative carries: a mapping, or an array of their
    values, and no tag before it. -/
def fieldsBody (depth : Nat) (fields : List (Field Reader)) : Reader := fun bs =>
  match takeHead? bs with
  | some (.array size, rest) =>
    if depth = 0 then none
    else (readFirst (fields.map Field.reader) size rest).map
      fun r => (.record (named fields r.1), r.2)
  | some (.map size, rest) =>
    if depth = 0 then none else readFields (depth - 1) fields size rest
  | _ => none

mutual

/-- A value of a shape off the front of some bytes, with so much depth left. -/
def decodeAt : Shape → Nat → Reader
  | .unit, _ => fun bs =>
    match takeUntagged? bs with
    | some (.simple n, rest) => if saysNothing n then some (.unit, rest) else none
    | _ => none
  | .boolean, _ => fun bs =>
    match takeUntagged? bs with
    | some (.simple 20, rest) => some (.boolean false, rest)
    | some (.simple 21, rest) => some (.boolean true, rest)
    | _ => none
  | .unsigned width, _ => readRange (Datum.ofUnsigned? width)
  | .signed width, _ => readRange (Datum.ofSigned? width)
  | .single, _ => fun bs =>
    match takeUntagged? bs with
    | some (.real bits, rest) => some (.single (Real.narrow (UInt64.ofNat bits)), rest)
    | _ => none
  | .double, _ => fun bs =>
    match takeUntagged? bs with
    | some (.real bits, rest) => some (.double (UInt64.ofNat bits), rest)
    | _ => none
  | .character, _ => readCharacter
  | .text, _ => fun bs => (readText bs).map fun r => (.text r.1, r.2)
  | .option value, depth => fun bs =>
    match takeHead? bs with
    | some (.simple n, rest) =>
      if saysNothing n then some (.absent, rest) else (decodeAt value depth).map .present bs
    | _ => (decodeAt value depth).map .present bs
  | .sequence item, depth => readSequence depth (decodeAt item (depth - 1))
  | .tuple items, depth => fun bs =>
    match takeUntagged? bs with
    | some (.array size, rest) =>
      if depth = 0 then none
      else (readFirst (readersAt items (depth - 1)) size rest).map fun r => (.tuple r.1, r.2)
    | _ => none
  | .mapping value, depth => fun bs =>
    match takeUntagged? bs with
    | some (.map size, rest) =>
      if depth = 0 then none
      else (readEntriesWith (textEntry (decodeAt value (depth - 1))) size [] rest).map
        fun r => (Datum.ofEntries r.1, r.2)
    | _ => none
  | .record fields, depth => fun bs =>
    match takeUntagged? bs with
    | some (.map size, rest) =>
      if depth = 0 then none
      else readFields (depth - 1) (fieldReadersAt fields (depth - 1)) size rest
    | _ => none
  | .choice variants, depth => fun bs =>
    if depth = 0 then none else readChoice (alternativeReadersAt variants (depth - 1)) bs
  | .anything, depth => readAnything depth

/-- The readers of some shapes. -/
def readersAt : List Shape → Nat → List Reader
  | [], _ => []
  | shape :: shapes, depth => decodeAt shape depth :: readersAt shapes depth

/-- The readers of some fields. -/
def fieldReadersAt : List (String × Shape) → Nat → List (Field Reader)
  | [], _ => []
  | (name, shape) :: fields, depth =>
    ⟨name, shape.mayBeMissing, decodeAt shape depth⟩ :: fieldReadersAt fields depth

/-- The readers of some alternatives. -/
def alternativeReadersAt : List (String × Option Shape) → Nat → List (Alternative Reader)
  | [], _ => []
  | (name, none) :: variants, depth => ⟨name, none⟩ :: alternativeReadersAt variants depth
  | (name, some (.tuple items)) :: variants, depth =>
    ⟨name, some (itemsBody depth (readersAt items (depth - 1)))⟩
      :: alternativeReadersAt variants depth
  | (name, some (.record fields)) :: variants, depth =>
    ⟨name, some (fieldsBody depth (fieldReadersAt fields (depth - 1)))⟩
      :: alternativeReadersAt variants depth
  | (name, some shape) :: variants, depth =>
    ⟨name, some (decodeAt shape depth)⟩ :: alternativeReadersAt variants depth

end

/-- A value of a shape off the front of some bytes. -/
def decode (shape : Shape) : Reader := decodeAt shape depthLimit

end FramedIpc.Payload.Cbor
