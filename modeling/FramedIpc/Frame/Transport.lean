import FramedIpc.Frame.Buffer
import FramedIpc.Stream.Polled

/-!
# Framed Transports

A framed transport keeps two buffers beside a polled stream. Frames to be
written are put into the outbound one and leave it as the stream takes them;
whatever the stream gives is put into the inbound one, which may hold more
than one frame, and frames are taken off its front.

Both buffers outlive the calls that work on them. A call that is dropped
half-way leaves in the outbound buffer what the stream has not taken, and in
the inbound buffer the start of a frame, and the next call goes on from
there.

## Main definitions

* `Transport`: A stream and two buffers.
* `Transport.pollFlush`: Write out the outbound buffer.
* `Transport.pollNext`: The next frame that comes in.
* `Transport.send`: Put a frame into the outbound buffer and write it out.
* `Transport.close`: Write out the outbound buffer and shut the stream down.
-/

namespace FramedIpc

/-- A stream and two buffers. -/
structure Transport (σ : Type) where
  stream : σ
  /-- What came in and was not taken yet. -/
  inbound : Bytes
  /-- What is to go out and was not taken by the stream yet. -/
  outbound : Bytes
  deriving DecidableEq, Repr

namespace Transport

open FramedIpc.Frame

variable {σ : Type} (io : PolledStream σ)

/-- A transport on a stream on which nothing has happened. -/
def fresh (stream : σ) : Transport σ := ⟨stream, [], []⟩

/-- The fault of a write that the stream takes no byte of. -/
def stuck : Fault := .described .writeZero "failed to write frame to transport"

/-- How many bytes in the outbound buffer have to be written out before
    another frame is put there. -/
def highWater : Nat := 8192

/-- The most bytes that one read asks for. -/
def readSize : Nat := 8192

/-- Hand the outbound buffer to the stream until it is empty. -/
def pollWrite (t : Transport σ) : Poll (Except Error Unit) × Transport σ :=
  if _h : t.outbound.isEmpty then (.ready (.ok ()), t)
  else
    match io.write t.outbound t.stream with
    | (.pending, stream) => (.pending, { t with stream := stream })
    | (.ready (.error fault), stream) => (.ready (.error (.io fault)), { t with stream := stream })
    -- Asking again would not end.
    | (.ready (.ok 0), stream) => (.ready (.error (.io stuck)), { t with stream := stream })
    | (.ready (.ok (n + 1)), stream) =>
      pollWrite { t with stream := stream, outbound := t.outbound.drop (n + 1) }
termination_by t.outbound.length
decreasing_by
  have : 0 < t.outbound.length := by
    cases ht : t.outbound with
    | nil => exact absurd (by rw [ht]; rfl) _h
    | cons b bs => exact Nat.succ_pos _
  simp only [List.length_drop]
  omega

/-- Write out the outbound buffer and flush the stream. -/
def pollFlush (t : Transport σ) : Poll (Except Error Unit) × Transport σ :=
  match pollWrite io t with
  | (.ready (.ok ()), t) =>
    match io.flush t.stream with
    | (.pending, stream) => (.pending, { t with stream := stream })
    | (.ready (.error fault), stream) => (.ready (.error (.io fault)), { t with stream := stream })
    | (.ready (.ok ()), stream) => (.ready (.ok ()), { t with stream := stream })
  | other => other

/-- Make room in the outbound buffer, if it holds too much. -/
def pollReady (t : Transport σ) : Poll (Except Error Unit) × Transport σ :=
  if highWater ≤ t.outbound.length then pollFlush io t else (.ready (.ok ()), t)

/-- Write out the outbound buffer and shut the stream down. -/
def pollClose (t : Transport σ) : Poll (Except Error Unit) × Transport σ :=
  match pollFlush io t with
  | (.ready (.ok ()), t) =>
    match io.shutdown t.stream with
    | (.pending, stream) => (.pending, { t with stream := stream })
    | (.ready (.error fault), stream) => (.ready (.error (.io fault)), { t with stream := stream })
    | (.ready (.ok ()), stream) => (.ready (.ok ()), { t with stream := stream })
  | other => other

/-- A buffer without a whole frame is shorter than the longest frame. -/
theorem length_lt_of_take_none {max : Nat} {buffer : Bytes}
    (h : Frame.take max buffer = .ok none) : buffer.length < 4 + max := by
  unfold Frame.take at h
  split at h
  · rename_i hs
    match buffer with
    | [] => exact Nat.lt_of_lt_of_le (by decide : 0 < 4) (Nat.le_add_right 4 max)
    | [_] => exact Nat.lt_of_lt_of_le (by decide : 1 < 4) (Nat.le_add_right 4 max)
    | [_, _] => exact Nat.lt_of_lt_of_le (by decide : 2 < 4) (Nat.le_add_right 4 max)
    | [_, _, _] => exact Nat.lt_of_lt_of_le (by decide : 3 < 4) (Nat.le_add_right 4 max)
    | _ :: _ :: _ :: _ :: _ => cases hs
  · rename_i hs
    have hb := congrArg List.length (Header.eq_of_split? hs)
    rw [List.length_append, Header.length_bytes] at hb
    split at h
    · cases h
    split at h
    · simp only [Header.size] at hb
      omega
    · cases h

/-- The payload of the next frame that comes in, or nothing if the stream
    ends before one begins. The stream is read only while the inbound buffer
    holds no whole frame, so the reads end. -/
def pollNext (max : Nat) (t : Transport σ) :
    Poll (Except Error (Option Bytes)) × Transport σ :=
  match h : Frame.take max t.inbound with
  | .error error => (.ready (.error error), t)
  | .ok (some (payload, rest)) => (.ready (.ok (some payload)), { t with inbound := rest })
  | .ok none =>
    match io.read readSize t.stream with
    | (.pending, stream) => (.pending, { t with stream := stream })
    | (.ready (.error fault), stream) => (.ready (.error (.io fault)), { t with stream := stream })
    -- The stream has ended; what is left is a frame cut short, or nothing.
    | (.ready (.ok []), stream) =>
      (.ready (takeLast max t.inbound).1, ⟨stream, (takeLast max t.inbound).2, t.outbound⟩)
    | (.ready (.ok (b :: bs)), stream) =>
      have := length_lt_of_take_none h
      pollNext max { t with stream := stream, inbound := t.inbound ++ b :: bs }
termination_by 4 + max - t.inbound.length
decreasing_by
  simp only [List.length_append, List.length_cons]
  omega

/-- Put the frame of a payload into the outbound buffer and write it out, as
    long as the patience lasts. -/
def send (max : Nat) (payload : Bytes) (patience : Nat) (t : Transport σ) :
    Waited (Except Error Unit) × Transport σ :=
  match await (pollReady io) patience t with
  | (some (.ok (), patience), t) =>
    match Frame.append max payload t.outbound with
    | (.ok (), outbound) => await (pollFlush io) patience { t with outbound := outbound }
    | (.error error, _) => (some (.error error, patience), t)
  | other => other

/-- The next frame that comes in, as long as the patience lasts. -/
def next (max patience : Nat) (t : Transport σ) :
    Waited (Except Error (Option Bytes)) × Transport σ :=
  await (pollNext io max) patience t

/-- Write out the outbound buffer and shut the stream down, as long as the
    patience lasts. -/
def close (patience : Nat) (t : Transport σ) : Waited (Except Error Unit) × Transport σ :=
  await (pollClose io) patience t

end Transport

end FramedIpc
