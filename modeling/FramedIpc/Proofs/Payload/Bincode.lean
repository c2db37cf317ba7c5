import FramedIpc.Payload.Format
import FramedIpc.Proofs.Payload.Binary
import FramedIpc.Proofs.Text.Utf8

/-!
# Texts in Bincode

A text is its count in eight bytes and then its own, and a record is nothing
but its fields. A text whose count fits is read back from whatever follows it,
and a message of one text with it.

## Theorems

* `takeText?_append`: A text is taken off the front.
* `encode_note`: The bytes of a message of one text.
* `decode_note`: Such a message is read off the front.
-/

namespace FramedIpc.Payload.Bincode

/-- A text is taken off the front of whatever it stands before. -/
theorem takeText?_append {s : String} (h : (Text.utf8 s).length < Nat.pow 256 8) (rest : Bytes) :
    takeText? (count (Text.utf8 s).length ++ Text.utf8 s ++ rest) = some (s, rest) := by
  rw [takeText?, List.append_assoc, takeCount?, count, takeLittle?_append h]
  simp only [Option.bind_eq_bind, Option.bind_some, takeBytes?_append, Text.ofUtf8?_utf8]
  rfl

theorem encode_note (field s : String) :
    encode (note field s) = some (count (Text.utf8 s).length ++ Text.utf8 s) := by
  simp only [note, encode, encodeFields, Option.bind_eq_bind, Option.bind_some, Option.pure_def,
    List.append_nil]

/-- A message of one text is read off the front of whatever it stands before. -/
theorem decode_note {s : String} (h : (Text.utf8 s).length < Nat.pow 256 8) (field : String)
    (rest : Bytes) :
    decode (noteShape field) (count (Text.utf8 s).length ++ Text.utf8 s ++ rest) =
      some (note field s, rest) := by
  simp only [noteShape, decode, fieldReaders, List.map_cons, List.map_nil, Reader.inOrder,
    takeText?_append h, Option.map_some, Option.bind_eq_bind, Option.bind_some, Option.pure_def]
  rfl

end FramedIpc.Payload.Bincode
