import FramedIpc.Payload.Format
import FramedIpc.Proofs.Payload.Binary
import FramedIpc.Proofs.Text.Utf8

/-!
# Texts in CBOR

Every head is one of five forms, the number of it in its first byte or in one,
two, four or eight bytes behind. `head_cases` says of any of them that its first
byte tells what the value is and that the number is read back, and nothing
after it asks which form it was.

A name is held to a length by its reader, a text is not.

## Theorems

* `head_cases`: The number of a head is read back.
* `readText_append`, `readName_append`: So are a text and a name.
* `encode_note`: The bytes of a message of one text.
* `decode_note`: Such a message is read off the front.
-/

namespace FramedIpc.Payload.Cbor

theorem parts_of_first {major low : Nat} (hmajor : major < 8) (hlow : low < 32) :
    (UInt8.ofNat (major * 32 + low)).toNat / 32 = major ∧
      (UInt8.ofNat (major * 32 + low)).toNat % 32 = low := by
  rw [UInt8.toNat_ofNat']
  omega

/-- A head is a byte that tells what the value is and in which form the number
    is, and the rest of the number. -/
theorem head_cases (major : Nat) {n : Nat} (hmajor : major < 8) (hn : n < Nat.pow 256 8) :
    ∃ b tail, head major n = b :: tail ∧ b.toNat / 32 = major ∧ b.toNat % 32 ≠ 31 ∧
      ∀ rest, takeNumber? (b.toNat % 32) (tail ++ rest) = some (n, rest) := by
  -- In every form but the first the number is in the bytes behind.
  have hlong {low size : Nat} (hlow : low < 28) (hsize : n < Nat.pow 256 size)
      (htake : ∀ bs, takeNumber? low bs = takeBig? size bs) :
      ∃ b tail, UInt8.ofNat (major * 32 + low) :: bigEndian size n = b :: tail ∧
        b.toNat / 32 = major ∧ b.toNat % 32 ≠ 31 ∧
          ∀ rest, takeNumber? (b.toNat % 32) (tail ++ rest) = some (n, rest) := by
    rcases parts_of_first hmajor (Nat.lt_trans hlow (by decide : 28 < 32)) with ⟨hhigh, hrest⟩
    refine ⟨_, _, rfl, hhigh, by omega, fun rest => ?_⟩
    rw [hrest, htake, takeBig?_append hsize]
  unfold head
  by_cases h1 : n < 24
  · rcases parts_of_first hmajor (Nat.lt_trans h1 (by decide : 24 < 32)) with ⟨hhigh, hrest⟩
    refine ⟨_, [], by rw [if_pos h1], hhigh, by omega, fun rest => ?_⟩
    rw [hrest, takeNumber?, if_pos h1, List.nil_append]
  by_cases h2 : n < 256
  · simp only [if_neg h1, if_pos h2]
    exact hlong (by decide) (by omega) fun bs => rfl
  by_cases h3 : n < 65536
  · simp only [if_neg h1, if_neg h2, if_pos h3]
    exact hlong (by decide) (by omega) fun bs => rfl
  by_cases h4 : n < 4294967296
  · simp only [if_neg h1, if_neg h2, if_neg h3, if_pos h4]
    exact hlong (by decide) (by omega) fun bs => rfl
  · simp only [if_neg h1, if_neg h2, if_neg h3, if_neg h4]
    exact hlong (by decide) hn fun bs => rfl

theorem takeHead?_text {n : Nat} (hn : n < Nat.pow 256 8) (rest : Bytes) :
    takeHead? (head 3 n ++ rest) = some (.text (some n), rest) := by
  rcases head_cases 3 (by decide) hn with ⟨b, tail, hhead, hmajor, hlow, htake⟩
  simp only [hhead, List.cons_append, takeHead?, hmajor, takeSize?, if_neg hlow, htake,
    Option.map_some]

theorem takeHead?_map {n : Nat} (hn : n < Nat.pow 256 8) (rest : Bytes) :
    takeHead? (head 5 n ++ rest) = some (.map (some n), rest) := by
  rcases head_cases 5 (by decide) hn with ⟨b, tail, hhead, hmajor, hlow, htake⟩
  simp only [hhead, List.cons_append, takeHead?, hmajor, takeSize?, if_neg hlow, htake,
    Option.map_some]

/-- Where a text or a mapping begins there is no tag to step over. -/
theorem takeUntagged?_text {n : Nat} (hn : n < Nat.pow 256 8) (rest : Bytes) :
    takeUntagged? (head 3 n ++ rest) = some (.text (some n), rest) := by
  rw [takeUntagged?, untagged, takeHead?_text hn]

theorem takeUntagged?_map {n : Nat} (hn : n < Nat.pow 256 8) (rest : Bytes) :
    takeUntagged? (head 5 n ++ rest) = some (.map (some n), rest) := by
  rw [takeUntagged?, untagged, takeHead?_map hn]

theorem takeText?_append (s : String) (rest : Bytes) :
    takeText? (some (Text.utf8 s).length) (Text.utf8 s ++ rest) = some (s, rest) := by
  simp only [takeText?, takePieces?, takeBytes?_append, Option.map_some, Option.bind_eq_bind,
    Option.bind_some, List.mapM_cons, List.mapM_nil, Text.ofUtf8?_utf8, Option.pure_def,
    String.join, List.foldl_cons, List.foldl_nil, String.empty_append]

/-- A text is read off the front of whatever it stands before. -/
theorem readText_append {s : String} (h : (Text.utf8 s).length < Nat.pow 256 8) (rest : Bytes) :
    readText (text s ++ rest) = some (s, rest) := by
  simp only [readText, text, List.append_assoc, takeUntagged?_text h, takeText?_append]

/-- So is a name, if it is no longer than names may be. -/
theorem readName_append {s : String} (h : (Text.utf8 s).length ≤ nameLimit) (rest : Bytes) :
    readName (text s ++ rest) = some (Text.utf8 s, rest) := by
  have hsize : (Text.utf8 s).length < Nat.pow 256 8 := Nat.lt_of_le_of_lt h (by decide)
  simp only [readName, text, List.append_assoc, takeUntagged?_text hsize,
    if_neg (Nat.not_lt.mpr h), takeText?_append, Option.map_some]

theorem text_ne_nil {s : String} (h : (Text.utf8 s).length < Nat.pow 256 8) : text s ≠ [] := by
  rcases head_cases 3 (by decide) h with ⟨b, tail, hhead, _⟩
  rw [text, hhead]
  exact List.cons_ne_nil _ _

/-- A mapping of one entry takes one step. -/
theorem readEntriesWith_one {α : Type} {step : α → Bytes → Option (α × Bytes)}
    {start state : α} {bs rest : Bytes} (hbs : bs ≠ []) (hstep : step start bs = some (state, rest)) :
    readEntriesWith step (some 1) start bs = some (state, rest) := by
  rcases List.exists_cons_of_ne_nil hbs with ⟨b, tail, rfl⟩
  simp only [readEntriesWith, List.length_cons, entriesWithin, hstep]

/-- The entry of a record of one field fills its place. -/
theorem fieldEntry_append {field : Field Reader} {bs rest : Bytes} {value : Datum} (depth : Nat)
    (hname : (Text.utf8 field.name).length ≤ nameLimit)
    (hread : field.reader bs = some (value, rest)) :
    fieldEntry depth [field] [none] (text field.name ++ bs) = some ([some value], rest) := by
  have hposition : position? [field.name] (Text.utf8 field.name) = some 0 := by
    simp only [position?, List.findIdx?_cons, beq_self_eq_true, if_true]
  simp only [fieldEntry, readName_append hname, Option.bind_eq_bind, Option.bind_some,
    List.map_cons, List.map_nil, hposition]
  simp only [isFilled, List.getElem?_cons_zero, Option.getD_some, Option.isSome_none,
    Bool.false_eq_true, if_false, Option.bind_some, hread, fill, List.set_cons_zero,
    Option.pure_def]

theorem encode_note (field s : String) :
    encode (note field s) = some (head 5 1 ++ (text field ++ text s)) := by
  simp only [note, encode, encodeFields, Option.bind_eq_bind, Option.bind_some, Option.pure_def,
    Option.map_some, List.append_nil, List.length_singleton]

/-- A message of one text is read off the front of whatever it stands before. -/
theorem decode_note {field s : String} (hfield : (Text.utf8 field).length ≤ nameLimit)
    (h : (Text.utf8 s).length < Nat.pow 256 8) (rest : Bytes) :
    decode (noteShape field) (head 5 1 ++ (text field ++ text s) ++ rest) =
      some (note field s, rest) := by
  have hentry : fieldEntry (depthLimit - 1) (fieldReadersAt [(field, .text)] (depthLimit - 1))
      [none] (text field ++ (text s ++ rest)) = some ([some (.text s)], rest) := by
    refine fieldEntry_append _ hfield ?_
    simp only [decodeAt, readText_append h, Option.map_some]
  -- The reader counts its steps by the bytes it has, so there has to be one.
  have hsome : text field ++ (text s ++ rest) ≠ [] :=
    List.append_ne_nil_of_left_ne_nil
      (text_ne_nil (Nat.lt_of_le_of_lt hfield (by decide))) _
  have hslots : emptySlots (fieldReadersAt [(field, .text)] (depthLimit - 1)) = [none] := rfl
  simp only [noteShape, decode, decodeAt, List.append_assoc,
    takeUntagged?_map (n := 1) (by decide), readFields, hslots, readEntriesWith_one hsome hentry]
  rfl

end FramedIpc.Payload.Cbor
