import FramedIpc.Proofs.Frame.Exchange
import FramedIpc.Proofs.Payload.Bincode
import FramedIpc.Proofs.Payload.Cbor
import FramedIpc.Proofs.Payload.Json
import FramedIpc.Proofs.Payload.MessagePack

/-!
# Messages Come Back

A message of one text is written in each of the four formats, whatever the text
is, and what was written is read back as the message. Where the formats differ
is in how long a text they can say: MessagePack has four bytes for the length,
bincode and CBOR have eight, and JSON needs none. A frame has four, so every
payload that a frame can carry is short enough for its format.

That is why nothing is asked here but that the payload fits, and that the field
has no longer a name than CBOR reads. Both ends then have the message, over any
streams that take what is written and give it back.

## Theorems

* `decode_encode_note`: A payload that fits is read back as its message.
* `note_comes_back`: And so it is over a pair of streams.
-/

namespace FramedIpc.Payload

open FramedIpc.Frame (Fits framed)

/-- Every format writes a message of one text, and reads it back from a payload
    that fits a frame. -/
theorem decode_encode_note (format : Format) {field : String} (s : String)
    (hfield : (Text.utf8 field).length ≤ Cbor.nameLimit) :
    ∃ payload, format.encode (note field s) = .ok payload ∧
      (payload.length < lengthBound →
        format.decode (noteShape field) payload = .ok (note field s)) := by
  have hname : (Text.utf8 field).length < 4294967296 := Nat.lt_of_le_of_lt hfield (by decide)
  -- What four bytes say, eight do.
  have hwide {n : Nat} (h : n < 4294967296) : n < Nat.pow 256 8 := Nat.lt_trans h (by decide)
  cases format with
  | json =>
      refine ⟨Json.noteBytes field s, ?_, fun _ => ?_⟩
      · rw [Format.encode, Json.encode_note]
        rfl
      · rw [Format.decode, Json.decode_note]
        rfl
  | bincode =>
      refine ⟨_, by rw [Format.encode, Bincode.encode_note]; rfl, fun hlen => ?_⟩
      rw [List.length_append, lengthBound] at hlen
      have hdecode := Bincode.decode_note (s := s) (hwide (by omega)) field []
      rw [List.append_nil] at hdecode
      rw [Format.decode, hdecode]
      rfl
  | messagePack =>
      refine ⟨_, by rw [Format.encode, MessagePack.encode_note]; rfl, fun hlen => ?_⟩
      simp only [MessagePack.text, List.length_append, lengthBound] at hlen
      have hdecode := MessagePack.decode_note (s := s) hname (by omega) []
      rw [List.append_nil] at hdecode
      rw [Format.decode, hdecode]
      rfl
  | cbor =>
      refine ⟨_, by rw [Format.encode, Cbor.encode_note]; rfl, fun hlen => ?_⟩
      simp only [Cbor.text, List.length_append, lengthBound] at hlen
      have hdecode := Cbor.decode_note (s := s) hfield (hwide (by omega)) []
      rw [List.append_nil] at hdecode
      rw [Format.decode, hdecode]
      rfl

/-- A payload that fits is written whole by a stream that accepts, and what it
    has written is read as that payload from a stream that delivers it. -/
theorem payload_comes_back {σ κ : Type} (near : Stream σ) (far : Stream κ) {max : Nat}
    {payload : Bytes} (hfit : Fits max payload) {s : σ} (ha : near.Accepts s) :
    ∃ s' ledger, Frame.write near.recorded max payload (s, .blank) = (.ok (), (s', ledger)) ∧
      ∀ (t : κ) (rest : Bytes), far.Delivers t (ledger.written ++ rest) →
        ∃ t', Frame.read far max t = (.ok payload, t') ∧ far.Delivers t' rest := by
  rcases hw : Frame.write near.recorded max payload (s, .blank) with ⟨outcome, s', ledger⟩
  rcases Frame.write_of_accepts (ha.recorded .blank) hfit hw with ⟨rfl, _⟩
  rcases Frame.write_cases (Stream.recorded_tracks near) hw with
    ⟨_, ⟨_, _, hwritten⟩ | ⟨_, ho, _⟩ | ⟨_, _, ho, _⟩⟩
  · refine ⟨s', ledger, rfl, fun t rest hd => ?_⟩
    have hframe : ledger.written = framed payload := hwritten
    rw [hframe] at hd
    have htake := Frame.take_framed_append hfit rest
    rcases hr : Frame.read far max t with ⟨heard, t'⟩
    rcases Frame.read_of_delivers hd hr with ⟨hheard, hrest⟩
    rw [Frame.takeLast_of_frame htake] at hheard
    exact ⟨t', by rw [hheard]; rfl, hrest payload rest htake⟩
  · cases ho
  · cases ho

/-- In every format, a message of one text has a payload. If it fits, it is
    read back as the message, and a stream that accepts takes its frame whole;
    whatever stream delivers what was taken, the reader at the other end has
    the message, and the stream then delivers what follows. -/
theorem note_comes_back (format : Format) {field : String} (s : String) (max : Nat)
    (hfield : (Text.utf8 field).length ≤ Cbor.nameLimit) :
    ∃ payload, format.encode (note field s) = .ok payload ∧
      (Fits max payload →
        format.decode (noteShape field) payload = .ok (note field s) ∧
        ∀ {σ κ : Type} (near : Stream σ) (far : Stream κ) (start : σ), near.Accepts start →
          ∃ s' ledger,
            Frame.write near.recorded max payload (start, .blank) = (.ok (), (s', ledger)) ∧
            ∀ (t : κ) (rest : Bytes), far.Delivers t (ledger.written ++ rest) →
              ∃ received t', Frame.read far max t = (.ok received, t') ∧ far.Delivers t' rest ∧
                format.decode (noteShape field) received = .ok (note field s)) := by
  rcases decode_encode_note format s hfield with ⟨payload, hencode, hdecode⟩
  refine ⟨payload, hencode, fun hfit => ⟨hdecode hfit.2, fun near far start ha => ?_⟩⟩
  rcases payload_comes_back near far hfit ha with ⟨s', ledger, hwrite, hread⟩
  refine ⟨s', ledger, hwrite, fun t rest hd => ?_⟩
  rcases hread t rest hd with ⟨t', hr, hrest⟩
  exact ⟨payload, t', hr, hrest, hdecode hfit.2⟩

/-- A text with a quote, a control and a character outside the basic plane. -/
def awkward : String := "\"\x01\\😀"

/-- It comes back in JSON over a stream that takes a byte at first and one that
    gives everything at once. -/
theorem note_comes_back_awkward :
    ∃ payload s' ledger received t',
      Format.json.encode (note "name" awkward) = .ok payload ∧
      Frame.write Stream.Script.stream.recorded 64 payload (⟨[], [], [.ok 1], [], []⟩, .blank) =
        (.ok (), (s', ledger)) ∧
      Frame.read Stream.Script.stream 64 ⟨ledger.written, [], [], [], []⟩ = (.ok received, t') ∧
      Format.json.decode (noteShape "name") received = .ok (note "name" awkward) := by
  rcases @note_comes_back .json "name" awkward 64 (by decide +kernel) with
    ⟨payload, hencode, hback⟩
  have hfit : Fits 64 payload := by
    rw [Format.encode, Json.encode_note] at hencode
    cases hencode
    decide +kernel
  have ha : Stream.Script.stream.Accepts ⟨[], [], [.ok 1], [], []⟩ :=
    Stream.Script.accepts (by decide) (by decide)
  rcases (hback hfit).2 Stream.Script.stream Stream.Script.stream _ ha with
    ⟨s', ledger, hwrite, hread⟩
  have hd : Stream.Script.stream.Delivers ⟨ledger.written, [], [], [], []⟩ (ledger.written ++ []) :=
    @Stream.Script.delivers ⟨ledger.written, [], [], [], []⟩ (by simp)
  rcases hread _ _ hd with ⟨received, t', hr, _, hdecode⟩
  exact ⟨payload, s', ledger, received, t', hencode, hwrite, hr, hdecode⟩

end FramedIpc.Payload
