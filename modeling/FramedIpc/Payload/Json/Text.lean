import FramedIpc.Payload.Error
import FramedIpc.Text.Utf8

/-!
# Texts in JSON

A text stands in double quotes, the two characters that would end or upset
it and all controls below the space escaped, and everything else as it is.
When it is read back, further escapes are accepted, and characters outside
the basic plane may be a pair of escapes.

A reader that only skips a text looks at less: it does not care whether
escapes pair up or the bytes are UTF-8.

## Main definitions

* `escaped`: The written form of a character.
* `quoted`: The written form of a text.
* `readText`: A text whose opening quote has been read.
* `skipText`: The same, for a text that nobody wants.
-/

namespace FramedIpc.Payload.Json

/-- A value and the bytes after it, or what kind of mistake there is. -/
abbrev Parsed (α : Type) := Except Category (α × Bytes)

/-- A digit to base sixteen, lower case. -/
def hexDigit (n : Nat) : Char :=
  if n < 10 then Char.ofNat (48 + n) else Char.ofNat (87 + n)

/-- The written form of a character. -/
def escaped (c : Char) : List Char :=
  if c = '"' then ['\\', '"']
  else if c = '\\' then ['\\', '\\']
  else if c = '\n' then ['\\', 'n']
  else if c = '\r' then ['\\', 'r']
  else if c = '\t' then ['\\', 't']
  else if c = '\x08' then ['\\', 'b']
  else if c = '\x0c' then ['\\', 'f']
  else if c.toNat < 32 then
    ['\\', 'u', '0', '0', hexDigit (c.toNat / 16), hexDigit (c.toNat % 16)]
  else [c]

/-- The written form of a text. -/
def quoted (s : String) : List Char :=
  '"' :: (s.toList.flatMap escaped ++ ['"'])

/-- The value of a digit to base sixteen. -/
def hexValue? (b : UInt8) : Option Nat :=
  if 48 ≤ b && b ≤ 57 then some (b.toNat - 48)
  else if 97 ≤ b && b ≤ 102 then some (b.toNat - 87)
  else if 65 ≤ b && b ≤ 70 then some (b.toNat - 55)
  else none

/-- Four digits to base sixteen. -/
def readHex : Bytes → Parsed Nat
  | a :: b :: c :: d :: rest =>
    match hexValue? a, hexValue? b, hexValue? c, hexValue? d with
    | some a, some b, some c, some d => .ok (((a * 16 + b) * 16 + c) * 16 + d, rest)
    | _, _, _, _ => .error .malformed
  | _ => .error .eof

/-- Whether a unit of sixteen bits is the first of a pair. -/
def isLeading (n : Nat) : Bool := 0xD800 ≤ n && n ≤ 0xDBFF

/-- Whether a unit of sixteen bits is the second of a pair. -/
def isTrailing (n : Nat) : Bool := 0xDC00 ≤ n && n ≤ 0xDFFF

/-- The character that a pair of units stands for. -/
def ofPair (first second : Nat) : Char :=
  Char.ofNat (65536 + (first - 0xD800) * 1024 + (second - 0xDC00))

/-- The second half of a pair whose first unit is `first`. -/
def readTrailing (first : Nat) : Bytes → Parsed Char
  | [] => .error .eof
  | a :: rest =>
    if a ≠ 92 then .error .malformed
    else match rest with
      | [] => .error .eof
      | b :: rest =>
        if b ≠ 117 then .error .malformed
        else
          match readHex rest with
          | .error e => .error e
          | .ok (second, rest) =>
            if isTrailing second then .ok (ofPair first second, rest)
            else .error .malformed

/-- An escape by number, after its letter. -/
def readUnicode (bs : Bytes) : Parsed Char :=
  match readHex bs with
  | .error e => .error e
  | .ok (n, rest) =>
    -- The second unit of a pair, with no first before it.
    if isTrailing n then .error .malformed
    else if isLeading n then readTrailing n rest
    else .ok (Char.ofNat n, rest)

/-- The character that a letter after a backslash stands for. -/
def plainEscape? (b : UInt8) : Option Char :=
  if b = 34 then some '"'
  else if b = 92 then some '\\'
  else if b = 47 then some '/'
  else if b = 98 then some '\x08'
  else if b = 102 then some '\x0c'
  else if b = 110 then some '\n'
  else if b = 114 then some '\r'
  else if b = 116 then some '\t'
  else none

/-- An escape, after its backslash. -/
def readEscape : Bytes → Parsed Char
  | [] => .error .eof
  | b :: rest =>
    match plainEscape? b with
    | some c => .ok (c, rest)
    | none => if b = 117 then readUnicode rest else .error .malformed

theorem length_lt_of_readHex {bs rest : Bytes} {n : Nat} (h : readHex bs = .ok (n, rest)) :
    rest.length < bs.length := by
  unfold readHex at h
  split at h
  · split at h
    · cases h
      simp only [List.length_cons]
      omega
    · cases h
  · cases h

theorem length_lt_of_readTrailing {first : Nat} {bs rest : Bytes} {c : Char}
    (h : readTrailing first bs = .ok (c, rest)) : rest.length < bs.length := by
  unfold readTrailing at h
  split at h
  · cases h
  split at h
  · cases h
  split at h
  · cases h
  split at h
  · cases h
  split at h
  · cases h
  rename_i hx
  split at h
  · injection h with h
    injection h with _ h
    have := length_lt_of_readHex hx
    simp only [← h, List.length_cons]
    omega
  · cases h

theorem length_lt_of_readUnicode {bs rest : Bytes} {c : Char}
    (h : readUnicode bs = .ok (c, rest)) : rest.length < bs.length := by
  unfold readUnicode at h
  split at h
  · cases h
  rename_i hx
  have hlt := length_lt_of_readHex hx
  split at h
  · cases h
  split at h
  · exact Nat.lt_trans (length_lt_of_readTrailing h) hlt
  · cases h
    exact hlt

theorem length_lt_of_readEscape {bs rest : Bytes} {c : Char}
    (h : readEscape bs = .ok (c, rest)) : rest.length < bs.length := by
  unfold readEscape at h
  split at h
  · cases h
  split at h
  · cases h
    exact Nat.lt_succ_self _
  split at h
  · exact Nat.lt_succ_of_lt (length_lt_of_readUnicode h)
  · cases h

/-- The bytes of a text up to its closing quote, escapes resolved, after those
    in `done`, last first. -/
def readRaw (done : Bytes) (bs : Bytes) : Parsed Bytes :=
  match bs with
  | [] => .error .eof
  | b :: rest =>
    if b = 34 then .ok (done.reverse, rest)
    else if b = 92 then
      match h : readEscape rest with
      | .error e => .error e
      | .ok (c, rest') =>
        have := length_lt_of_readEscape h
        readRaw ((Text.utf8Chars [c]).reverse ++ done) rest'
    else if b < 32 then .error .malformed
    else readRaw (b :: done) rest
termination_by bs.length
decreasing_by
  · simp only [List.length_cons]
    omega
  · exact Nat.lt_succ_self _

/-- A text whose opening quote has been read. -/
def readText (bs : Bytes) : Parsed String :=
  match readRaw [] bs with
  | .error e => .error e
  | .ok (raw, rest) =>
    match Text.ofUtf8? raw with
    | some text => .ok (text, rest)
    | none => .error .malformed

/-- Skip an escape after its backslash. -/
def skipEscape : Bytes → Except Category Bytes
  | [] => .error .eof
  | b :: rest =>
    if (plainEscape? b).isSome then .ok rest
    else if b = 117 then (readHex rest).map Prod.snd
    else .error .malformed

theorem length_lt_of_skipEscape {bs rest : Bytes} (h : skipEscape bs = .ok rest) :
    rest.length < bs.length := by
  unfold skipEscape at h
  split at h
  · cases h
  split at h
  · cases h
    exact Nat.lt_succ_self _
  split at h
  · cases hx : readHex _ with
    | error e => rw [hx] at h; cases h
    | ok r =>
      rw [hx] at h
      cases h
      exact Nat.lt_succ_of_lt (length_lt_of_readHex hx)
  · cases h

/-- Skip a text whose opening quote has been read. -/
def skipText (bs : Bytes) : Except Category Bytes :=
  match bs with
  | [] => .error .eof
  | b :: rest =>
    if b = 34 then .ok rest
    else if b = 92 then
      match h : skipEscape rest with
      | .error e => .error e
      | .ok rest' =>
        have := length_lt_of_skipEscape h
        skipText rest'
    else if b < 32 then .error .malformed
    else skipText rest
termination_by bs.length
decreasing_by
  · simp only [List.length_cons]
    omega
  · exact Nat.lt_succ_self _

end FramedIpc.Payload.Json
