import FramedIpc.Frame.Header

/-!
# Frames in a Buffer

Bytes that arrive in pieces are kept in a buffer, and frames are taken off
its front once they are whole. A buffer that holds no whole frame is left as
it is, so asking too early costs nothing; a header that promises more than
the limit is an error at once, before its payload is waited for.

At the end of the stream what is left in the buffer is either nothing, or the
start of a frame that will never be whole.

## Main definitions

* `Frame.encode`: The frame of a payload.
* `Frame.take`: The first frame of a buffer.
* `Frame.takeFirst`: The same, with what is left of the buffer.
* `Frame.takeLast`: The first frame of a buffer that will not grow.
* `Frame.append`: A buffer with the frame of a payload at its end.
-/

namespace FramedIpc.Frame

/-- The longest payload that is allowed where nothing else is said. -/
def standardLimit : Nat := 16777216

/-- The bytes of a payload's frame, if its length fits the header. -/
def encode (payload : Bytes) : Except Error Bytes :=
  match Header.ofLength payload.length with
  | .ok header => .ok (header.bytes ++ payload)
  | .error error => .error error

/-- The frame of a payload within a limit. The limit is looked at first. -/
def encodeWithin (max : Nat) (payload : Bytes) : Except Error Bytes :=
  if max < payload.length then .error (.payloadTooLarge payload.length max)
  else encode payload

/-- The payload of the first frame of a buffer and the bytes after it, or
    nothing while the frame is not whole. -/
def take (max : Nat) (buffer : Bytes) : Except Error (Option (Bytes × Bytes)) :=
  match Header.split? buffer with
  | none => .ok none
  | some (header, rest) =>
    if max < header.length then .error (.payloadTooLarge header.length max)
    else if rest.length < header.length then .ok none
    else .ok (some (rest.take header.length, rest.drop header.length))

/-- As `take`, of a buffer that may grow. The second part is the buffer
    afterwards; one that has no whole frame at its front is left as it was. -/
def takeFirst (max : Nat) (buffer : Bytes) : Except Error (Option Bytes) × Bytes :=
  match take max buffer with
  | .error error => (.error error, buffer)
  | .ok none => (.ok none, buffer)
  | .ok (some (payload, rest)) => (.ok (some payload), rest)

/-- What is wrong with bytes in which the stream ended, if they are not a
    whole frame. -/
def truncation (buffer : Bytes) : Error :=
  match Header.split? buffer with
  | none => .truncated Header.size buffer.length
  | some (header, rest) => .truncated header.length rest.length

/-- As `take`, of a buffer that will not grow: bytes that are no whole frame
    are an error, and they are dropped. The second part is the buffer
    afterwards. -/
def takeLast (max : Nat) (buffer : Bytes) : Except Error (Option Bytes) × Bytes :=
  match take max buffer with
  | .error error => (.error error, buffer)
  | .ok (some (payload, rest)) => (.ok (some payload), rest)
  -- The start of a frame is told of once and then forgotten.
  | .ok none => if buffer.isEmpty then (.ok none, buffer) else (.error (truncation buffer), [])

/-- A buffer with the frame of a payload at its end. A payload that is
    refused leaves the buffer as it was. -/
def append (max : Nat) (payload buffer : Bytes) : Except Error Unit × Bytes :=
  match encodeWithin max payload with
  | .ok frame => (.ok (), buffer ++ frame)
  | .error error => (.error error, buffer)

end FramedIpc.Frame
