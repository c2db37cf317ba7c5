import FramedIpc.Payload.Binary
import FramedIpc.Proofs.Frame.Wire

/-!
# The Front of a Buffer

A buffer can begin in four ways. It may be too short for a header; its header
may promise more than the limit; it may promise more bytes than have come; or it
begins with a whole frame. `Front` says what is answered in each, and what is
left of the buffer, in terms of frames and headers and not of how they are
looked for. It describes `takeFirst` exactly (`takeFirst_eq_iff`), so whatever is
asked of the first frame of a buffer is read off the four ways.

Only a frame that is whole is taken off, and all that is done to a buffer is that
it is taken off. A buffer in which nothing is decided is shorter than the longest
frame, so waiting for more takes no more room than that; and once something is
decided it stays so, whatever comes.

## Main definitions

* `Front`: What the front of a buffer is, and what is answered.

## Theorems

* `ofBigEndian_take`: A header spells the number of its bytes.
* `takeFirst_eq_iff`: The front of a buffer decides the answer.
* `Front.append`: What is decided stays so while more arrives.
* `front_frame_iff`, `front_error_iff`, `front_none_iff`: The front in terms of
  frames and of numbers.
* `takeFirst_exactly`: When there is a frame, when an error, and when neither.
-/

namespace FramedIpc.Frame

open Payload (ofBigEndian)

/-- What the front of a buffer is, with the answer that it gets and what is left
    of the buffer. -/
inductive Front (max : Nat) : Bytes → Except Error (Option Bytes) × Bytes → Prop where
  /-- There is no whole header. -/
  | short {buffer : Bytes} : buffer.length < Header.size → Front max buffer (.ok none, buffer)
  /-- The header promises more than is allowed. -/
  | oversize {header : Header} {rest : Bytes} :
      max < header.length →
      Front max (header.bytes ++ rest)
        (.error (.payloadTooLarge header.length max), header.bytes ++ rest)
  /-- It promises more than has come. -/
  | started {header : Header} {rest : Bytes} :
      header.length ≤ max → rest.length < header.length →
      Front max (header.bytes ++ rest) (.ok none, header.bytes ++ rest)
  /-- There is a whole frame. -/
  | whole {payload rest : Bytes} :
      Fits max payload → Front max (framed payload ++ rest) (.ok (some payload), rest)

variable {max : Nat} {buffer : Bytes} {answer : Except Error (Option Bytes) × Bytes}

/-- A header spells the number of its bytes. -/
theorem ofBigEndian_take (header : Header) (rest : Bytes) :
    ofBigEndian ((header.bytes ++ rest).take Header.size) = header.length := by
  rw [List.take_left' header.length_bytes, ofBigEndian, Header.bytes, Header.length]
  simp only [List.foldl_cons, List.foldl_nil, Nat.zero_mul, Nat.zero_add]

theorem exists_header (h : Header.size ≤ buffer.length) :
    ∃ header rest, buffer = Header.bytes header ++ rest := by
  rcases hs : Header.split? buffer with _ | ⟨header, rest⟩
  · exact absurd (split?_eq_none_iff.mp hs) (Nat.not_lt.mpr h)
  · exact ⟨header, rest, Header.eq_of_split? hs⟩

/-- The front of a buffer is one of the four. -/
theorem front_takeFirst (max : Nat) (buffer : Bytes) :
    Front max buffer (takeFirst max buffer) := by
  rw [takeFirst]
  rcases ht : take max buffer with error | _ | ⟨payload, rest⟩
  · rcases oversize_of_take ht with ⟨header, rest, rfl, hmax, rfl⟩
    exact .oversize hmax
  · by_cases hshort : buffer.length < Header.size
    · exact .short hshort
    rcases exists_header (Nat.le_of_not_lt hshort) with ⟨header, rest, rfl⟩
    -- Neither of the other two answers was given to the header.
    by_cases hmax : max < header.length
    · rw [take_of_oversize hmax] at ht
      cases ht
    by_cases hlen : rest.length < header.length
    · exact .started (Nat.le_of_not_lt hmax) hlen
    · rw [take, Header.split?_bytes_append] at ht
      simp only [hmax, hlen, if_false] at ht
      cases ht
  · rcases eq_of_take ht with ⟨rfl, hfits⟩
    exact .whole hfits

theorem takeFirst_of_front (h : Front max buffer answer) : takeFirst max buffer = answer := by
  rw [takeFirst]
  cases h with
  | short hshort => rw [take_of_short hshort]
  | oversize hmax => rw [take_of_oversize hmax]
  | started hmax hlen => rw [take_of_header hmax hlen]
  | whole hfits => rw [take_framed_append hfits]

/-- The front of a buffer decides the answer, and the answer tells the front. -/
theorem takeFirst_eq_iff : takeFirst max buffer = answer ↔ Front max buffer answer :=
  ⟨fun h => h ▸ front_takeFirst max buffer, takeFirst_of_front⟩

theorem Front.unique {other : Except Error (Option Bytes) × Bytes} (h : Front max buffer answer)
    (h' : Front max buffer other) : answer = other :=
  (takeFirst_of_front h).symm.trans (takeFirst_of_front h')

/-- What is decided stays so while more arrives. -/
theorem Front.append {result : Except Error (Option Bytes)} {rest : Bytes}
    (h : Front max buffer (result, rest)) (hdecided : result ≠ .ok none) (more : Bytes) :
    Front max (buffer ++ more) (result, rest ++ more) := by
  cases h with
  | short _ => exact absurd rfl hdecided
  | oversize hmax =>
      rw [List.append_assoc]
      exact .oversize hmax
  | started _ _ => exact absurd rfl hdecided
  | whole hfits =>
      rw [List.append_assoc]
      exact .whole hfits

/-- A frame is taken off exactly if the buffer begins with the frame of a payload
    within the limit. -/
theorem front_frame_iff {payload rest : Bytes} :
    Front max buffer (.ok (some payload), rest) ↔
      payload.length ≤ max ∧ ∃ frame, encode payload = .ok frame ∧ buffer = frame ++ rest := by
  constructor
  · intro h
    cases h with
    | whole hfits => exact ⟨hfits.1, _, encode_eq_ok_iff.mpr ⟨hfits.2, rfl⟩, rfl⟩
  · rintro ⟨hmax, frame, hencode, rfl⟩
    rcases encode_eq_ok_iff.mp hencode with ⟨hbound, rfl⟩
    exact .whole ⟨hmax, hbound⟩

/-- There is an error exactly if there is a header, and it spells more than the
    limit. -/
theorem front_error_iff {error : Error} {rest : Bytes} :
    Front max buffer (.error error, rest) ↔
      (Header.size ≤ buffer.length ∧ max < ofBigEndian (buffer.take Header.size)) ∧
        error = .payloadTooLarge (ofBigEndian (buffer.take Header.size)) max ∧ rest = buffer := by
  constructor
  · intro h
    cases h with
    | oversize hmax =>
        rw [ofBigEndian_take, List.length_append, Header.length_bytes]
        exact ⟨⟨Nat.le_add_right _ _, hmax⟩, rfl, rfl⟩
  · rintro ⟨⟨hlen, hmax⟩, rfl, rfl⟩
    rcases exists_header hlen with ⟨header, tail, rfl⟩
    rw [ofBigEndian_take] at hmax ⊢
    exact .oversize hmax

/-- Nothing is decided exactly if there is no header, or one that spells no more
    than the limit but more than has come. -/
theorem front_none_iff {rest : Bytes} :
    Front max buffer (.ok none, rest) ↔
      (buffer.length < Header.size ∨
        (ofBigEndian (buffer.take Header.size) ≤ max ∧
          buffer.length < Header.size + ofBigEndian (buffer.take Header.size))) ∧
        rest = buffer := by
  constructor
  · intro h
    cases h with
    | short hshort => exact ⟨Or.inl hshort, rfl⟩
    | started hmax hlen =>
        rw [ofBigEndian_take, List.length_append, Header.length_bytes]
        exact ⟨Or.inr ⟨hmax, Nat.add_lt_add_left hlen _⟩, rfl⟩
  · rintro ⟨hwait, rfl⟩
    by_cases hshort : rest.length < Header.size
    · exact .short hshort
    rcases exists_header (Nat.le_of_not_lt hshort) with ⟨header, tail, rfl⟩
    rcases hwait.resolve_left hshort with ⟨hmax, hlen⟩
    rw [ofBigEndian_take] at hmax hlen
    rw [List.length_append, Header.length_bytes] at hlen
    exact .started hmax (Nat.lt_of_add_lt_add_left hlen)

/-- That is, exactly if there is neither a frame nor an error. -/
theorem front_neither_iff {rest : Bytes} :
    Front max buffer (.ok none, rest) ↔
      ((¬ ∃ payload after, payload.length ≤ max ∧
          ∃ frame, encode payload = .ok frame ∧ buffer = frame ++ after) ∧
        ¬ (Header.size ≤ buffer.length ∧ max < ofBigEndian (buffer.take Header.size))) ∧
      rest = buffer := by
  constructor
  · intro h
    refine ⟨⟨?_, ?_⟩, (front_none_iff.mp h).2⟩
    · rintro ⟨payload, after, hframe⟩
      cases h.unique (front_frame_iff.mpr hframe)
    · intro hover
      cases h.unique (front_error_iff.mpr ⟨hover, rfl, rfl⟩)
  · rintro ⟨⟨hframe, hover⟩, rfl⟩
    rcases hanswer : takeFirst max rest with ⟨error | _ | payload, after⟩ <;>
      have hfront := takeFirst_eq_iff.mp hanswer
    · exact absurd (front_error_iff.mp hfront).1 hover
    · rcases front_none_iff.mp hfront with ⟨_, rfl⟩
      exact hfront
    · exact absurd ⟨payload, after, front_frame_iff.mp hfront⟩ hframe

/-- A buffer gives a frame, and keeps what follows it, exactly if it begins with
    the frame of a payload within the limit; it is refused exactly if it has a
    header that spells more than the limit; and otherwise it waits, and is then
    shorter than the longest frame. Nothing but a frame is ever taken off it.
    What is decided stays so, whatever is appended. -/
theorem takeFirst_exactly (max : Nat) (buffer : Bytes) :
    (∀ payload rest, takeFirst max buffer = (.ok (some payload), rest) ↔
      payload.length ≤ max ∧ ∃ frame, encode payload = .ok frame ∧ buffer = frame ++ rest) ∧
    (∀ error rest, takeFirst max buffer = (.error error, rest) ↔
      (Header.size ≤ buffer.length ∧ max < ofBigEndian (buffer.take Header.size)) ∧
        error = .payloadTooLarge (ofBigEndian (buffer.take Header.size)) max ∧ rest = buffer) ∧
    (∀ rest, takeFirst max buffer = (.ok none, rest) ↔
      ((¬ ∃ payload after, payload.length ≤ max ∧
          ∃ frame, encode payload = .ok frame ∧ buffer = frame ++ after) ∧
        ¬ (Header.size ≤ buffer.length ∧ max < ofBigEndian (buffer.take Header.size))) ∧
      rest = buffer) ∧
    (∀ rest, takeFirst max buffer = (.ok none, rest) → buffer.length < Header.size + max) ∧
    ∀ result rest more, takeFirst max buffer = (result, rest) → result ≠ .ok none →
      takeFirst max (buffer ++ more) = (result, rest ++ more) := by
  refine ⟨?_, ?_, ?_, ?_, ?_⟩
  · intro payload rest
    exact takeFirst_eq_iff.trans front_frame_iff
  · intro error rest
    exact takeFirst_eq_iff.trans front_error_iff
  · intro rest
    exact takeFirst_eq_iff.trans front_neither_iff
  · intro rest hnone
    have hwait := (front_none_iff.mp (takeFirst_eq_iff.mp hnone)).1
    omega
  · intro result rest more hanswer hdecided
    exact takeFirst_of_front ((takeFirst_eq_iff.mp hanswer).append hdecided more)

end FramedIpc.Frame
