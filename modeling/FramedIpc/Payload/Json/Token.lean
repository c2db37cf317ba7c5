import FramedIpc.Payload.Json.Number

/-!
# JSON Tokens

The front of a value tells its kind. A `Token` is what can be taken off the
front in one go: a whole word, number or text, or the bracket that opens a
list or an object. What is wanted can then be compared with what is there,
and something else that is well formed is a mistake about the shape, while
something that is not well formed is a mistake about the text.

Here is also what stands between values: blanks, commas, colons and closing
brackets, and how a value is skipped that nobody wants.

## Main definitions

* `Token`: What the front of a value is.
* `readToken`: The token at the front.
* `nextItem`: Step to the next item of a list.
* `nextKey`: Step to the next key of an object.
* `skipValue`: Skip a value.
-/

namespace FramedIpc.Payload.Json

/-- What the front of a value is. -/
inductive Token where
  | null
  | boolean (value : Bool)
  | number (value : Number)
  | text (value : String)
  /-- A list is opened. -/
  | list
  /-- An object is opened. -/
  | object
  deriving Repr

/-- Whether a byte is blank between values. -/
def isBlank (b : UInt8) : Bool :=
  b = 32 || b = 9 || b = 10 || b = 13

/-- The text after its blanks. -/
def dropBlanks (bs : Bytes) : Bytes := bs.dropWhile isBlank

/-- The text after a word. -/
def readWord : List Char → Bytes → Except Category Bytes
  | [], bs => .ok bs
  | _ :: _, [] => .error .eof
  | c :: word, b :: bs => if b.toNat = c.toNat then readWord word bs else .error .malformed

/-- A word that stands for a token. -/
def readNamed (token : Token) (word : String) (bs : Bytes) : Parsed Token :=
  (readWord word.toList bs).map (token, ·)

/-- Whether a number can begin with a byte. -/
def startsNumber (b : UInt8) : Bool :=
  b = 45 || (digit? b).isSome

/-- The token at the front of some bytes, blanks before it skipped. -/
def readToken (bs : Bytes) : Parsed Token :=
  match dropBlanks bs with
  | [] => .error .eof
  | b :: rest =>
    if b = 110 then readNamed .null "ull" rest
    else if b = 116 then readNamed (.boolean true) "rue" rest
    else if b = 102 then readNamed (.boolean false) "alse" rest
    else if startsNumber b then (readNumber (b :: rest)).map fun r => (.number r.1, r.2)
    else if b = 34 then (readText rest).map fun r => (.text r.1, r.2)
    else if b = 91 then .ok (.list, rest)
    else if b = 123 then .ok (.object, rest)
    else .error .malformed

/-- Step to the next item of a list, past its comma unless it is the first.
    The flag says whether there is one; if not, the bytes are those after the
    closing bracket. -/
def nextItem (first : Bool) (bs : Bytes) : Parsed Bool :=
  match dropBlanks bs with
  | [] => .error .eof
  | b :: rest =>
    if b = 93 then .ok (false, rest)
    else if first then .ok (true, b :: rest)
    else if b = 44 then
      match dropBlanks rest with
      | [] => .error .eof
      -- A comma promises another item.
      | c :: rest => if c = 93 then .error .malformed else .ok (true, c :: rest)
    else .error .malformed

/-- The text of a key after its opening quote. -/
def openKey : Bytes → Parsed Bool
  | [] => .error .eof
  | b :: rest => if b = 34 then .ok (true, rest) else .error .malformed

/-- Step to the next key of an object, past its opening quote. The flag says
    whether there is one. -/
def nextKey (first : Bool) (bs : Bytes) : Parsed Bool :=
  match dropBlanks bs with
  | [] => .error .eof
  | b :: rest =>
    if b = 125 then .ok (false, rest)
    else if first then openKey (b :: rest)
    else if b = 44 then openKey (dropBlanks rest)
    else .error .malformed

/-- The text after a mark that has to come next. -/
def expect (mark : UInt8) (bs : Bytes) : Except Category Bytes :=
  match dropBlanks bs with
  | [] => .error .eof
  | b :: rest => if b = mark then .ok rest else .error .malformed

/-- The text after a colon. -/
def readColon (bs : Bytes) : Except Category Bytes := expect 58 bs

section Skip

variable (skip : Bytes → Except Category Bytes)

/-- Skip the items of a list, so many at most. -/
def skipItems : Nat → Bool → Bytes → Except Category Bytes
  | 0, _, _ => .error .eof
  | n + 1, first, bs =>
    match nextItem first bs with
    | .error e => .error e
    | .ok (false, rest) => .ok rest
    | .ok (true, rest) => skip rest >>= skipItems n false

/-- Skip the entries of an object, so many at most. -/
def skipEntries : Nat → Bool → Bytes → Except Category Bytes
  | 0, _, _ => .error .eof
  | n + 1, first, bs =>
    match nextKey first bs with
    | .error e => .error e
    | .ok (false, rest) => .ok rest
    | .ok (true, rest) => skipText rest >>= readColon >>= skip >>= skipEntries n false

end Skip

/-- Skip a value that nests so deep at most. -/
def skipNested : Nat → Bytes → Except Category Bytes
  | 0, _ => .error .eof
  | depth + 1, bs =>
    match dropBlanks bs with
    | [] => .error .eof
    | b :: rest =>
      if b = 34 then skipText rest
      else if b = 91 then skipItems (skipNested depth) (rest.length + 1) true rest
      else if b = 123 then skipEntries (skipNested depth) (rest.length + 1) true rest
      else if startsNumber b then skipNumber (b :: rest)
      else (readToken (b :: rest)).map Prod.snd

/-- Skip a value. Each nesting takes a byte, so there are no more than bytes. -/
def skipValue (bs : Bytes) : Except Category Bytes :=
  skipNested (bs.length + 1) bs

end FramedIpc.Payload.Json
