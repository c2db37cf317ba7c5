import FramedIpc.Proofs.Frame.Exchange
import FramedIpc.Proofs.Stream.Twins

/-!
# What Reading and Writing a Frame Does Not Look At

Two things have no say in how a frame is moved, and what comes after it cannot
tell how they were.

When a frame is written it is put together in a buffer first, and one buffer
serves for all the frames of a stream. It is emptied for each of them, so
nothing that an earlier frame has left there gets out, nor anything of a
payload that was refused. `Frame.write` makes no mention of the buffer. It need
not: whatever the buffer held, writing through it is the same to the stream and
to the caller.

When a frame is read its header says how long it is, and the bytes of the
payload are taken as they come. Of two streams that differ in these bytes only
one is left as the other is, so whether somebody can make sense of the payload
is nothing that the stream would know.

## Main definitions

* `handOver`: Hand over the bytes of a buffer and pass them on.
* `writeVia`: Write the frame of one payload through a buffer.

## Theorems

* `writeVia_eq`: Whatever the buffer held, it is the same write.
* `read_of_twins`: Streams that differ in a payload are the same after it.
-/

namespace FramedIpc.Frame

open FramedIpc.Stream

variable {σ : Type}

section Buffer

/-- Hand over the bytes of a buffer and pass them on. -/
def handOver (io : Stream σ) (buffer : Bytes) (s : σ) : Except Error Unit × σ :=
  match io.writeWhole buffer s with
  | (.ok true, s') =>
    match io.flushWhole s' with
    | (.ok (), s'') => (.ok (), s'')
    | (.error fault, s'') => (.error (.io fault), s'')
  | (.ok false, s') => (.error .connectionClosed, s')
  | (.error fault, s') => (.error (.io fault), s')

/-- Write the frame of one payload through a buffer that holds `scratch`. A
    payload beyond the limit leaves the buffer alone; any other has it emptied
    first. The last part is the buffer afterwards. -/
def writeVia (io : Stream σ) (max : Nat) (payload scratch : Bytes) (s : σ) :
    Except Error Unit × σ × Bytes :=
  if max < payload.length then (.error (.payloadTooLarge payload.length max), s, scratch)
  else
    match Header.ofLength payload.length with
    | .error error => (.error error, s, [])
    | .ok header =>
      ((handOver io (header.bytes ++ payload) s).1, (handOver io (header.bytes ++ payload) s).2,
        header.bytes ++ payload)

/-- Whatever the buffer held, writing through it is writing. -/
theorem writeVia_eq (io : Stream σ) (max : Nat) (payload scratch : Bytes) (s : σ) :
    ∃ left, writeVia io max payload scratch s =
      ((write io max payload s).1, (write io max payload s).2, left) := by
  unfold writeVia write encodeWithin encode
  by_cases hmax : max < payload.length
  · exact ⟨scratch, by simp only [hmax, if_true]⟩
  simp only [hmax, if_false]
  rcases Header.ofLength payload.length with error | header
  · exact ⟨[], rfl⟩
  · exact ⟨header.bytes ++ payload, rfl⟩

end Buffer

variable {io : Stream σ} {max : Nat} {s s₁ : σ}

theorem read_of_fault {fault : Fault} (h : io.readWhole Header.size s = (.error fault, s₁)) :
    read io max s = (.error (.io fault), s₁) := by
  rw [read, h]

theorem read_of_short {start : Bytes} (h : io.readWhole Header.size s = (.ok start, s₁))
    (hlen : start.length < Header.size) :
    read io max s = (.error (if start.isEmpty then .connectionClosed
      else .truncated Header.size start.length), s₁) := by
  rw [read, h]
  simp only [split?_eq_none_iff.mpr hlen]
  split <;> rfl

theorem read_of_header {header : Header}
    (h : io.readWhole Header.size s = (.ok header.bytes, s₁)) (hmax : header.length ≤ max) :
    read io max s = readPayload io header.length s₁ := by
  have hsplit := Header.split?_bytes_append header []
  rw [List.append_nil] at hsplit
  rw [read, h]
  simp only [hsplit, if_neg (Nat.not_lt.mpr hmax)]

theorem readPayload_of_twinStep {R : σ → Bytes → σ → Bytes → Prop} (hR : TwinStep io R)
    {s' t : σ} {left right : Bytes} {outcome : Except Error Bytes} (h : R s left s' right)
    (hr : readPayload io left.length s = (outcome, t)) :
    (∃ error t', outcome = .error error ∧ readPayload io left.length s' = (.error error, t')) ∨
      outcome = .ok left ∧ readPayload io left.length s' = (.ok right, t) := by
  have hlen := hR.length h
  unfold readPayload at hr ⊢
  rcases hbody : io.readWhole left.length s with ⟨body, s₁⟩
  rcases hR.readWhole h (Nat.le_refl _) hbody with
    ⟨t', ⟨fault, rfl, hbody'⟩ | ⟨k, hk, rfl, hbody', h₁⟩⟩
  · rw [hbody] at hr
    cases hr
    exact Or.inl ⟨_, t', rfl, by rw [hbody']⟩
  rw [hbody] at hr
  rw [hbody']
  simp only [List.length_take, ← hlen, Nat.min_eq_left hk] at hr ⊢
  by_cases hshort : k < left.length
  · -- The stream has ended inside the payload, for both at the same byte.
    simp only [hshort, if_true] at hr ⊢
    cases hr
    exact Or.inl ⟨_, t', rfl, rfl⟩
  · simp only [hshort, if_false] at hr ⊢
    -- The whole payload is read, so nothing is left to differ in.
    have hall : k = left.length := by omega
    rw [hall, List.drop_length, hlen, List.drop_length] at h₁
    rw [hall, List.take_length] at hr
    cases hr
    refine Or.inr ⟨rfl, ?_⟩
    rw [hall, hlen, List.take_length, hR.same h₁]

/-- Of two streams that give one frame each and differ in nothing but its
    payload, both fail with the same error, or both give their payload and are
    one and the same afterwards. -/
theorem read_of_twins {s' t : σ} {left right : Bytes} {outcome : Except Error Bytes}
    (hfit : Fits max left) (ht : io.Twins s (framed left) s' (framed right))
    (hr : read io max s = (outcome, t)) :
    (∃ error t', outcome = .error error ∧ read io max s' = (.error error, t')) ∨
      outcome = .ok left ∧ read io max s' = (.ok right, t) := by
  rcases ht with ⟨R, hR, h⟩
  have hlen := hR.length h
  rw [length_framed, length_framed, Nat.add_left_cancel_iff] at hlen
  rw [framed, framed, ← hlen] at h
  rcases hstart : io.readWhole Header.size s with ⟨start, s₁⟩
  have hsize : Header.size ≤ ((Header.spelling left.length).bytes ++ left).length := by
    rw [List.length_append, Header.length_bytes]
    omega
  rcases hR.readWhole h hsize hstart with ⟨t', ⟨fault, rfl, hstart'⟩ | ⟨k, hk, rfl, hstart', h₁⟩⟩
  · rw [read_of_fault hstart] at hr
    cases hr
    exact Or.inl ⟨_, t', rfl, read_of_fault hstart'⟩
  -- No more than the header was asked for, and the header is the same.
  rw [List.take_append_of_le_length (by rw [Header.length_bytes]; exact hk)] at hstart hstart'
  by_cases hshort : k < Header.size
  · have hpart : ((Header.spelling left.length).bytes.take k).length < Header.size := by
      rw [List.length_take]
      omega
    rw [read_of_short hstart hpart] at hr
    cases hr
    exact Or.inl ⟨_, t', rfl, read_of_short hstart' hpart⟩
  · have hwhole : k = (Header.spelling left.length).bytes.length := by
      rw [Header.length_bytes]
      omega
    rw [hwhole, List.take_length] at hstart hstart'
    rw [hwhole, List.drop_left, List.drop_left] at h₁
    have hmax : (Header.spelling left.length).length ≤ max := by
      rw [Header.length_spelling hfit.2]
      exact hfit.1
    rw [read_of_header hstart hmax, Header.length_spelling hfit.2] at hr
    rw [read_of_header hstart' hmax, Header.length_spelling hfit.2]
    exact readPayload_of_twinStep hR h₁ hr

end FramedIpc.Frame
