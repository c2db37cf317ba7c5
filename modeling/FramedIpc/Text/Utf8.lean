/-!
# Text as Bytes

Every name, path and payload crosses the wire as UTF-8. Two readings are
needed: a strict one, which refuses a byte string that is not text, and a
lenient one for showing a path to a person, which puts a replacement
character where the bytes make no sense.

Both are built on `firstScalar`, which looks at the front of a byte string
and says how many bytes its first scalar value takes, or how long the part
is that cannot start one. The length of that part follows the rule of the
Unicode standard: the longest run of bytes that is a proper start of some
well-formed sequence, and at least one byte.

## Main definitions

* `utf8`: The bytes of a text.
* `firstScalar`: The scalar value at the front of some bytes.
* `ofUtf8?`: The text that some bytes spell, if they spell one.
* `ofUtf8Lossy`: A text for any bytes, ill-formed parts replaced.
-/

namespace FramedIpc

/-- A byte string. -/
abbrev Bytes := List UInt8

namespace Text

/-- The UTF-8 bytes of a list of characters. -/
def utf8Chars (cs : List Char) : Bytes :=
  cs.flatMap String.utf8EncodeChar

/-- The UTF-8 bytes of a text. -/
def utf8 (s : String) : Bytes :=
  utf8Chars s.toList

/-- What the front of a byte string holds. -/
inductive Front where
  /-- No bytes at all. -/
  | empty
  /-- A scalar value, and the bytes after it. -/
  | scalar (c : Char) (rest : Bytes)
  /-- Bytes that begin no scalar value, and the bytes after them. -/
  | broken (rest : Bytes)
  deriving Repr, DecidableEq

/-- The bytes that may come second in a sequence that begins with `lead`. The
    bounds shut out overlong forms, surrogates and values past the last
    scalar; any later byte is only held to `0x80` to `0xBF`. -/
def secondBounds (lead : UInt8) : UInt8 × UInt8 :=
  if lead = 0xE0 then (0xA0, 0xBF)
  else if lead = 0xED then (0x80, 0x9F)
  else if lead = 0xF0 then (0x90, 0xBF)
  else if lead = 0xF4 then (0x80, 0x8F)
  else (0x80, 0xBF)

/-- Read `n` more bytes of a sequence whose bits so far are `value`, the next
    of them within `bounds`. -/
def readTails : Nat → Nat → UInt8 × UInt8 → Bytes → Front
  | 0, value, _, rest => .scalar (Char.ofNat value) rest
  | _ + 1, _, _, [] => .broken []
  | n + 1, value, bounds, b :: rest =>
    if bounds.1 ≤ b && b ≤ bounds.2 then
      readTails n (value * 64 + b.toNat % 64) (0x80, 0xBF) rest
    else .broken (b :: rest)

/-- The front of a byte string. -/
def firstScalar : Bytes → Front
  | [] => .empty
  | a :: rest =>
    if a < 0x80 then readTails 0 a.toNat (secondBounds a) rest
    -- A tail byte, or a lead byte of overlong forms only.
    else if a < 0xC2 then .broken rest
    else if a < 0xE0 then readTails 1 (a.toNat % 32) (secondBounds a) rest
    else if a < 0xF0 then readTails 2 (a.toNat % 16) (secondBounds a) rest
    else if a < 0xF5 then readTails 3 (a.toNat % 8) (secondBounds a) rest
    else .broken rest

/-- The bytes that a look at the front leaves over. -/
def Front.rest : Front → Bytes
  | .empty => []
  | .scalar _ rest => rest
  | .broken rest => rest

theorem length_rest_readTails_le (n value : Nat) (bounds : UInt8 × UInt8) (bs : Bytes) :
    (readTails n value bounds bs).rest.length ≤ bs.length := by
  induction n generalizing value bounds bs with
  | zero => cases bs <;> exact Nat.le_refl _
  | succ n ih =>
    cases bs with
    | nil => exact Nat.le_refl _
    | cons b rest =>
      rw [readTails]
      split
      · exact Nat.le_succ_of_le (ih _ _ rest)
      · exact Nat.le_refl _

/-- A look at the front of some bytes takes at least one of them. -/
theorem length_rest_firstScalar_lt (b : UInt8) (bs : Bytes) :
    (firstScalar (b :: bs)).rest.length < (b :: bs).length := by
  have h := fun n value bounds => Nat.lt_succ_of_le (length_rest_readTails_le n value bounds bs)
  rw [firstScalar, List.length_cons]
  split
  · exact h ..
  split
  · exact Nat.lt_succ_self _
  split
  · exact h ..
  split
  · exact h ..
  split
  · exact h ..
  · exact Nat.lt_succ_self _

theorem length_lt_of_scalar {bs rest : Bytes} {c : Char}
    (h : firstScalar bs = .scalar c rest) : rest.length < bs.length := by
  cases bs with
  | nil => exact Front.noConfusion h
  | cons b bs => simpa only [h, Front.rest] using length_rest_firstScalar_lt b bs

theorem length_lt_of_broken {bs rest : Bytes}
    (h : firstScalar bs = .broken rest) : rest.length < bs.length := by
  cases bs with
  | nil => exact Front.noConfusion h
  | cons b bs => simpa only [h, Front.rest] using length_rest_firstScalar_lt b bs

/-- Read characters off the front, those already read in reverse in `read`. -/
def readChars (read : List Char) (bs : Bytes) : Option (List Char) :=
  match h : firstScalar bs with
  | .empty => some read.reverse
  | .broken _ => none
  | .scalar c rest =>
    have := length_lt_of_scalar h
    readChars (c :: read) rest
termination_by bs.length

/-- As `readChars`, with the replacement character for each broken part. -/
def readCharsLossy (read : List Char) (bs : Bytes) : List Char :=
  match h : firstScalar bs with
  | .empty => read.reverse
  | .broken rest =>
    have := length_lt_of_broken h
    readCharsLossy ('\uFFFD' :: read) rest
  | .scalar c rest =>
    have := length_lt_of_scalar h
    readCharsLossy (c :: read) rest
termination_by bs.length

/-- The text that some bytes spell, if every byte belongs to a scalar value. -/
def ofUtf8? (bs : Bytes) : Option String :=
  (readChars [] bs).map String.ofList

/-- A text for any bytes, each broken part shown as one U+FFFD. -/
def ofUtf8Lossy (bs : Bytes) : String :=
  String.ofList (readCharsLossy [] bs)

end Text

end FramedIpc
