import FramedIpc.Frame.Buffer
import FramedIpc.Stream.Whole
import FramedIpc.Time.Span

/-!
# Frames on a Stream

Reading a frame takes its header and then exactly its payload, so no byte of
the next frame is ever taken along. Writing a frame hands over header and
payload as one run of bytes and flushes once all of it is taken. A payload
that is refused reaches the stream with no byte, and a frame that is refused
is left with its header read.

## Main definitions

* `Frame.Config`: The limit and the timeouts of a framed stream.
* `Frame.read`: Read the payload of one frame.
* `Frame.write`: Write the frame of one payload.
-/

namespace FramedIpc.Frame

/-- The limit and the timeouts of a framed stream. -/
structure Config where
  /-- The longest payload that is read or written. -/
  maxPayload : Nat
  /-- How long a read may wait. -/
  readTimeout : Option Span
  /-- How long a write may wait. -/
  writeTimeout : Option Span
  deriving DecidableEq, Repr

/-- The standard limit, and no timeouts. -/
def Config.standard : Config := ⟨standardLimit, none, none⟩

variable {σ : Type}

/-- Read the payload of a frame whose header has been read. -/
def readPayload (io : Stream σ) (length : Nat) (s : σ) : Except Error Bytes × σ :=
  match io.readWhole length s with
  | (.ok payload, s') =>
    if payload.length < length then (.error (.truncated length payload.length), s')
    else (.ok payload, s')
  | (.error fault, s') => (.error (.io fault), s')

/-- Read the payload of one frame. A stream that ends before the frame is
    closed; one that ends inside it cuts the frame off. -/
def read (io : Stream σ) (max : Nat) (s : σ) : Except Error Bytes × σ :=
  match io.readWhole Header.size s with
  | (.ok start, s') =>
    match Header.split? start with
    | some (header, _) =>
      -- The payload stays unread: nothing good can follow it.
      if max < header.length then (.error (.payloadTooLarge header.length max), s')
      else readPayload io header.length s'
    | none =>
      if start.isEmpty then (.error .connectionClosed, s')
      else (.error (.truncated Header.size start.length), s')
  | (.error fault, s') => (.error (.io fault), s')

/-- Write the frame of one payload. -/
def write (io : Stream σ) (max : Nat) (payload : Bytes) (s : σ) : Except Error Unit × σ :=
  match encodeWithin max payload with
  | .error error => (.error error, s)
  | .ok frame =>
    match io.writeWhole frame s with
    | (.ok true, s') =>
      match io.flushWhole s' with
      | (.ok (), s'') => (.ok (), s'')
      | (.error fault, s'') => (.error (.io fault), s'')
    | (.ok false, s') => (.error .connectionClosed, s')
    | (.error fault, s') => (.error (.io fault), s')

end FramedIpc.Frame
