import FramedIpc.Fault

/-!
# Errors of Frames

Why a payload did not become a frame, or bytes did not become a payload.

## Main definitions

* `Frame.Error`: What went wrong with a frame.
* `Frame.Error.message`: The text shown for it.
-/

namespace FramedIpc.Frame

/-- What went wrong with a frame. -/
inductive Error where
  /-- The payload is longer than the limit. -/
  | payloadTooLarge (size max : Nat)
  /-- The length does not fit the header. -/
  | lengthOverflow (size : Nat)
  /-- A call on the stream failed. -/
  | io (fault : Fault)
  /-- The stream ended between two frames, or takes no more bytes. -/
  | connectionClosed
  /-- The stream ended inside a frame. -/
  | truncated (expected received : Nat)
  deriving DecidableEq, Repr

/-- The text shown for an error. -/
def Error.message : Error → String
  | .payloadTooLarge size max =>
    "payload too large (" ++ toString size ++ " bytes, max " ++ toString max ++ ")"
  | .lengthOverflow size =>
    "length " ++ toString size ++ " does not fit in a 32-bit length prefix"
  | .io fault => "frame I/O error: " ++ fault.message
  | .connectionClosed => "connection closed"
  | .truncated expected received =>
    "truncated frame: expected " ++ toString expected ++ " bytes, received " ++ toString received

/-- Whether a payload was refused before any of it reached the stream, if it
    was to be written. -/
def Error.isRefusal : Error → Bool
  | .payloadTooLarge _ _ => true
  | .lengthOverflow _ => true
  | _ => false

end FramedIpc.Frame
