import FramedIpc.Payload.Format
import FramedIpc.Proofs.Text.Utf8

/-!
# Texts in JSON

A text is written character by character. Most characters are written as they
are, as one byte or as several, none of which could be taken for a quote, a
backslash or a control; a quote, a backslash and a control are written as an
escape that the reader resolves. In each case the reader goes on behind the
character with the character's bytes added to those that it has
(`readRaw_escaped`), so what it has at the closing quote is the text.

## Theorems

* `readEscape_escaped`: An escape is resolved to its character.
* `readRaw_escaped`: A written character is read back.
* `readText_append`: So is a text, up to its closing quote.
* `encode_note`: The bytes of a message of one text.
* `decode_note`: Such a message is read back.
-/

namespace FramedIpc.Payload.Json

open FramedIpc.Text (utf8 utf8Chars)

section Raw

/-! What the reader of a text does with what comes next. -/

variable {b : UInt8} {bs : Bytes} (done rest : Bytes)

theorem readRaw_quote : readRaw done (34 :: rest) = .ok (done.reverse, rest) := by
  rw [readRaw]
  rfl

theorem readRaw_escape {c : Char} {more : Bytes} (h : readEscape more = .ok (c, rest)) :
    readRaw done (92 :: more) = readRaw ((utf8Chars [c]).reverse ++ done) rest := by
  rw [readRaw, if_neg (by decide), if_pos rfl]
  split
  · rename_i h'
    rw [h] at h'
    cases h'
  · rename_i h'
    rw [h] at h'
    cases h'
    rfl

/-- Whether a byte stands for itself. -/
def IsPlain (b : UInt8) : Prop := b ≠ 34 ∧ b ≠ 92 ∧ ¬ b < 32

theorem readRaw_plain (h : IsPlain b) : readRaw done (b :: rest) = readRaw (b :: done) rest := by
  rcases h with ⟨hquote, hbackslash, hcontrol⟩
  rw [readRaw, if_neg hquote, if_neg hbackslash, if_neg hcontrol]

theorem readRaw_plain_append (h : ∀ b ∈ bs, IsPlain b) :
    readRaw done (bs ++ rest) = readRaw (bs.reverse ++ done) rest := by
  induction bs generalizing done with
  | nil => rfl
  | cons b bs ih =>
      rw [List.cons_append, readRaw_plain _ _ (h b List.mem_cons_self),
        ih _ fun b hb => h b (List.mem_cons_of_mem _ hb), List.reverse_cons, List.append_assoc,
        List.singleton_append]

end Raw

/-- A character that is written as it is has plain bytes only. -/
theorem isPlain_of_mem {c : Char} {b : UInt8} (hquote : c ≠ '"') (hbackslash : c ≠ '\\')
    (hcontrol : 32 ≤ c.toNat) (h : b ∈ String.utf8EncodeChar c) : IsPlain b := by
  have hq : c.toNat ≠ 34 := fun hc => hquote (Char.toNat_inj.mp hc)
  have hb : c.toNat ≠ 92 := fun hc => hbackslash (Char.toNat_inj.mp hc)
  simp only [IsPlain, ne_eq, ← UInt8.toNat_inj, UInt8.lt_iff_toNat_lt, UInt8.reduceToNat]
  rcases Text.mem_utf8EncodeChar h with hc | hhigh
  · omega
  · omega

section Escapes

/-! What is written for a character that does not stand for itself. -/

theorem utf8EncodeChar_hexDigit {n : Nat} (h : n < 16) :
    ∃ b, String.utf8EncodeChar (hexDigit n) = [b] ∧ hexValue? b = some n := by
  -- Sixteen digits are few enough to look at each.
  have hall : ∀ n : Fin 16,
      (String.utf8EncodeChar (hexDigit n)).map hexValue? = [some n.val] := by decide
  have hdigit := hall ⟨n, h⟩
  rcases hbytes : String.utf8EncodeChar (hexDigit n) with _ | ⟨b, _ | ⟨_, _⟩⟩
  · rw [hbytes] at hdigit
    cases hdigit
  · rw [hbytes] at hdigit
    exact ⟨b, rfl, List.singleton_inj.mp hdigit⟩
  · rw [hbytes] at hdigit
    simp only [List.map_cons, List.cons.injEq, reduceCtorEq, and_false] at hdigit

/-- A control that has no letter is escaped by its number. -/
theorem readEscape_number {c : Char} (h : c.toNat < 32) (rest : Bytes) :
    readEscape (utf8Chars ['u', '0', '0', hexDigit (c.toNat / 16), hexDigit (c.toNat % 16)] ++ rest)
      = .ok (c, rest) := by
  rcases utf8EncodeChar_hexDigit (n := c.toNat / 16) (by omega) with ⟨high, hhigh, hhighValue⟩
  rcases utf8EncodeChar_hexDigit (n := c.toNat % 16) (by omega) with ⟨low, hlow, hlowValue⟩
  have hhex : readHex (48 :: 48 :: high :: low :: rest) = .ok (c.toNat, rest) := by
    have hzero : hexValue? 48 = some 0 := rfl
    simp only [readHex, hzero, hhighValue, hlowValue]
    congr 2
    omega
  have htrailing : isTrailing c.toNat = false := by
    simp only [isTrailing, Bool.and_eq_false_iff, decide_eq_false_iff_not]
    omega
  have hleading : isLeading c.toNat = false := by
    simp only [isLeading, Bool.and_eq_false_iff, decide_eq_false_iff_not]
    omega
  simp only [Text.utf8Chars_cons, hhigh, hlow]
  change readUnicode (48 :: 48 :: high :: low :: rest) = _
  simp only [readUnicode, hhex, htrailing, hleading, Bool.false_eq_true, if_false, Char.ofNat_toNat]

/-- A quote, a backslash and five controls have letters of their own. -/
theorem readEscape_letter {c : Char} {letter : UInt8} (h : plainEscape? letter = some c)
    (rest : Bytes) : readEscape (letter :: rest) = .ok (c, rest) := by
  simp only [readEscape, h]

end Escapes

/-- A written character is read back as its bytes, whichever way it is
    written. -/
theorem readRaw_escaped (done : Bytes) (c : Char) (rest : Bytes) :
    readRaw done (utf8Chars (escaped c) ++ rest) =
      readRaw ((String.utf8EncodeChar c).reverse ++ done) rest := by
  have hsole : utf8Chars [c] = String.utf8EncodeChar c := List.append_nil _
  have hletter (letter : UInt8) (h : plainEscape? letter = some c) :
      readRaw done (92 :: letter :: rest) =
        readRaw ((String.utf8EncodeChar c).reverse ++ done) rest := by
    rw [readRaw_escape _ _ (readEscape_letter h rest), hsole]
  -- One case for each way to write a character, in the order they are tried.
  unfold escaped
  split
  · exact hletter 34 (by subst c; rfl)
  split
  · exact hletter 92 (by subst c; rfl)
  split
  · exact hletter 110 (by subst c; rfl)
  split
  · exact hletter 114 (by subst c; rfl)
  split
  · exact hletter 116 (by subst c; rfl)
  split
  · exact hletter 98 (by subst c; rfl)
  split
  · exact hletter 102 (by subst c; rfl)
  split
  · rename_i hcontrol
    rw [Text.utf8Chars_cons, List.append_assoc]
    exact (readRaw_escape _ _ (readEscape_number hcontrol rest)).trans (by rw [hsole])
  · rename_i hquote hbackslash _ _ _ _ _ hcontrol
    rw [hsole]
    exact readRaw_plain_append _ _ fun b hb =>
      isPlain_of_mem hquote hbackslash (Nat.le_of_not_lt hcontrol) hb

/-- A written text is read back, up to its closing quote. -/
theorem readRaw_flatMap_escaped (done : Bytes) (cs : List Char) (rest : Bytes) :
    readRaw done (utf8Chars (cs.flatMap escaped) ++ rest) =
      readRaw ((utf8Chars cs).reverse ++ done) rest := by
  induction cs generalizing done with
  | nil => rfl
  | cons c cs ih =>
      rw [List.flatMap_cons, Text.utf8Chars_append, List.append_assoc, readRaw_escaped, ih,
        Text.utf8Chars_cons, List.reverse_append, List.append_assoc]

/-- The bytes of a text between its quotes. -/
def written (s : String) : Bytes := utf8Chars (s.toList.flatMap escaped)

theorem utf8Chars_quoted (s : String) : utf8Chars (quoted s) = 34 :: (written s ++ [34]) := by
  rw [quoted, Text.utf8Chars_cons, Text.utf8Chars_append]
  rfl

/-- A text is read back from behind its opening quote, whatever follows it. -/
theorem readText_append (s : String) (rest : Bytes) :
    readText (written s ++ 34 :: rest) = .ok (s, rest) := by
  have hraw : readRaw [] (written s ++ 34 :: rest) = .ok (utf8 s, rest) := by
    rw [written, readRaw_flatMap_escaped, readRaw_quote, List.append_nil, List.reverse_reverse,
      Text.utf8]
  rw [readText, hraw]
  simp only [Text.ofUtf8?_utf8]

/-- The bytes of a message of one text. -/
def noteBytes (field s : String) : Bytes :=
  123 :: 34 :: (written field ++ 34 :: 58 :: 34 :: (written s ++ [34, 125]))

theorem encode_note (field s : String) : encode (note field s) = .ok (noteBytes field s) := by
  have hentry : printed .line (note field s) =
      .ok (Setting.line.enclosed '\x7b' '\x7d' [Setting.line.entry field (quoted s)]) := by
    simp only [note, printed, printedFields]
    rfl
  rw [encode, hentry]
  have hopening : String.utf8EncodeChar '\x7b' = [123] := rfl
  have hcolon : String.utf8EncodeChar ':' = [58] := rfl
  have hclosing : String.utf8EncodeChar '\x7d' = [125] := rfl
  have hnil : utf8Chars [] = [] := rfl
  simp only [Except.map, Setting.enclosed, Setting.inner, Setting.separated, Setting.lineBreak,
    Setting.entry, Setting.colon, Text.utf8Chars_cons, Text.utf8Chars_append, utf8Chars_quoted,
    hopening, hcolon, hclosing, hnil, noteBytes, List.nil_append, List.append_nil,
    List.append_assoc, List.cons_append]

section Marks

/-! Stepping over what stands between the parts of a message. -/

variable (rest : Bytes)

theorem readToken_object : readToken (123 :: rest) = .ok (.object, rest) := rfl

theorem readToken_text {s : String} {more : Bytes} (h : readText rest = .ok (s, more)) :
    readToken (34 :: rest) = .ok (.text s, more) := by
  change (readText rest).map _ = _
  rw [h]
  rfl

theorem nextKey_quote : nextKey true (34 :: rest) = .ok (true, rest) := rfl

theorem nextKey_end (first : Bool) : nextKey first (125 :: rest) = .ok (false, rest) := rfl

theorem readColon_colon : readColon (58 :: rest) = .ok rest := rfl

end Marks

/-- The entry of a record of one field fills its place, and then the object
    ends. -/
theorem readFields_one {field : Field ValueReader} {bs rest : Bytes} {value : Datum} (n : Nat)
    (hread : field.reader bs = .ok (value, 125 :: rest)) :
    readFields [field] (n + 2) true [none] (34 :: (written field.name ++ 34 :: 58 :: bs)) =
      .ok ([some value], rest) := by
  have hposition : positionOf? field.name [field] = some 0 := by
    simp only [positionOf?, List.findIdx?_cons, beq_self_eq_true, if_true]
  rw [readFields, nextKey_quote]
  simp only [readText_append, bind, Except.bind, hposition, readColon_colon, hread,
    List.getElem?_cons_zero, isFilled, Option.getD_some, Option.isSome_none, Bool.false_eq_true,
    if_false, fill, List.set_cons_zero]
  rw [readFields, nextKey_end]

theorem readRecord_one {field : Field ValueReader} {bs rest : Bytes} {value : Datum} {depth : Nat}
    (hdepth : 1 < depth) (hread : field.reader bs = .ok (value, 125 :: rest)) :
    readRecord depth [field] (123 :: 34 :: (written field.name ++ 34 :: 58 :: bs)) =
      .ok (.record [(field.name, value)], rest) := by
  simp only [readRecord, readToken_object, nested, if_neg (Nat.not_le.mpr hdepth), emptySlots,
    List.map_cons, List.map_nil, List.length_cons]
  rw [readFields_one _ hread]
  rfl

/-- A message of one text is read back. -/
theorem decode_note (field s : String) :
    decode (noteShape field) (noteBytes field s) = .ok (note field s) := by
  have hvalue : decodeAt .text (depthLimit - 1) (34 :: (written s ++ [34, 125])) =
      .ok (.text s, [125]) := by
    -- The value ends where the brace of the object stands.
    simp only [decodeAt, readMade, readToken_text _ (readText_append s [125])]
  have hrecord : decodeAt (noteShape field) depthLimit (noteBytes field s) =
      .ok (note field s, []) :=
    @readRecord_one ⟨field, false, decodeAt .text (depthLimit - 1)⟩ _ _ _ _ (by decide) hvalue
  rw [decode, hrecord]
  rfl

end FramedIpc.Payload.Json
