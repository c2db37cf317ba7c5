import FramedIpc.Payload.Format
import FramedIpc.Proofs.Payload.Binary
import FramedIpc.Proofs.Text.Utf8

/-!
# Texts in MessagePack

The head of a text is the smallest of four that holds its count, so that the
boundary of each is where the writer goes on to the next. The reader tells them
apart by their first byte alone and gets the count back from any of them, as
long as four bytes can hold it.

A message of one text is a mapping of one entry, from a name to the text. What
its reader looks for is the name's bytes.

## Theorems

* `takeHead?_text`: The head of a text tells its count.
* `readText_append`: A text is read off the front.
* `encode_note`: The bytes of a message of one text.
* `decode_note`: Such a message is read off the front.
-/

namespace FramedIpc.Payload.MessagePack

section Heads

/-! The longer heads of a text by their first byte, and the head of a mapping of
one entry. -/

theorem takeHead?_d9 (bs : Bytes) : takeHead? (0xd9 :: bs) = withNumber 1 .text bs := rfl

theorem takeHead?_da (bs : Bytes) : takeHead? (0xda :: bs) = withNumber 2 .text bs := rfl

theorem takeHead?_db (bs : Bytes) : takeHead? (0xdb :: bs) = withNumber 4 .text bs := rfl

theorem takeHead?_mapHead_one (rest : Bytes) :
    takeHead? (mapHead 1 ++ rest) = some (.map 1, rest) := rfl

end Heads

/-- The head of a text tells its count, whichever of the four it is. -/
theorem takeHead?_text {s : String} (h : (Text.utf8 s).length < 4294967296) (rest : Bytes) :
    takeHead? (text s ++ rest) =
      some (.text (Text.utf8 s).length, Text.utf8 s ++ rest) := by
  unfold text
  generalize hn : (Text.utf8 s).length = n at h
  simp only [hn]
  -- The short head holds the count itself; the others differ in its width.
  by_cases h1 : n < 32
  · have hbyte : (UInt8.ofNat (0xa0 + n)).toNat = 160 + n := by
      rw [UInt8.toNat_ofNat']
      omega
    simp only [if_pos h1, List.cons_append, List.nil_append, takeHead?, UInt8.lt_iff_toNat_lt,
      hbyte, UInt8.reduceToNat]
    rw [if_neg (by omega), if_neg (by omega), if_neg (by omega), if_pos (by omega)]
    congr 3
    omega
  by_cases h2 : n < 256
  · simp only [if_neg h1, if_pos h2, List.cons_append, List.append_assoc]
    rw [takeHead?_d9, withNumber, takeBig?_append (by omega)]
    rfl
  by_cases h3 : n < 65536
  · simp only [if_neg h1, if_neg h2, if_pos h3, List.cons_append, List.append_assoc]
    rw [takeHead?_da, withNumber, takeBig?_append (by omega)]
    rfl
  · simp only [if_neg h1, if_neg h2, if_neg h3, List.cons_append, List.append_assoc]
    rw [takeHead?_db, withNumber, takeBig?_append (by omega)]
    rfl

/-- A text is read off the front of whatever it stands before. -/
theorem readText_append {s : String} (h : (Text.utf8 s).length < 4294967296) (rest : Bytes) :
    readText (text s ++ rest) = some (s, rest) := by
  simp only [readText, takeHead?_text h, takeText?, takeBytes?_append, Text.ofUtf8?_utf8,
    Option.bind_eq_bind, Option.bind_some, Option.pure_def]

theorem readKey_append {s : String} (h : (Text.utf8 s).length < 4294967296) (rest : Bytes) :
    readKey (text s ++ rest) = some (.name (Text.utf8 s), rest) := by
  simp only [readKey, takeHead?_text h, takeBytes?_append, Option.map_some]

theorem encode_note (field s : String) :
    encode (note field s) = some (mapHead 1 ++ (text field ++ text s)) := by
  simp only [note, encode, encodeFields, Option.bind_eq_bind, Option.bind_some, Option.pure_def,
    Option.map_some, List.append_nil, List.length_singleton]

/-- A message of one text is read off the front of whatever it stands before. -/
theorem decode_note {field s : String} (hfield : (Text.utf8 field).length < 4294967296)
    (h : (Text.utf8 s).length < 4294967296) (rest : Bytes) :
    decode (noteShape field) (mapHead 1 ++ (text field ++ text s) ++ rest) =
      some (note field s, rest) := by
  have hname : Key.positionIn? [field] (.name (Text.utf8 field)) = some 0 := by
    simp only [Key.positionIn?, List.findIdx?_cons, beq_self_eq_true, if_true]
  -- The name is found in its place, and then the place is filled.
  simp only [noteShape, decode, decodeAt, readRecord, List.append_assoc, takeHead?_mapHead_one,
    fieldReadersAt, readFields, readKey_append hfield, List.map_cons, List.map_nil, hname]
  simp only [emptySlots, isFilled, fill, List.map_cons, List.map_nil, List.getElem?_cons_zero,
    Option.getD_some, Option.isSome_none, Option.bind_some, readText_append h, Option.map_some, List.set_cons_zero,
    Option.bind_eq_bind, Bool.false_eq_true, if_false,
    collect?, List.headD_cons, Option.pure_def]
  rfl

end FramedIpc.Payload.MessagePack
