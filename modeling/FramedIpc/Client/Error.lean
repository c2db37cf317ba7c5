import FramedIpc.Dial.Error
import FramedIpc.Frame.Header
import FramedIpc.Payload.Error

/-!
# Errors of Clients

Why a call on a client failed: there is no connection, the connection broke,
a frame or a payload was refused, or the call came at the wrong time.

Some errors always leave the client closed. A frame that is too long does so
only when it came in: the rest of it would be taken for the next frame. One
that was to go out was refused before it touched the stream.

## Main definitions

* `Client.Error`: Why a call on a client failed.
* `Client.Error.ofFrame`: What an error of a frame means to a client.
* `Client.Error.isFatal`: Whether an error always leaves the client closed.
* `Client.Error.message`: The text shown for it.
-/

namespace FramedIpc.Client

/-- Why a call on a client failed. -/
inductive Error where
  /-- There is no connection. -/
  | connect (cause : Dial.Error)
  /-- A call on the stream failed. -/
  | transport (fault : Fault)
  /-- The server went away between two frames. -/
  | disconnected
  /-- The server went away inside a frame. -/
  | truncatedFrame (expected received : Nat)
  /-- A frame is longer than allowed. -/
  | frameTooLarge (size max : Nat)
  /-- The request is no payload, or the payload no response. -/
  | codec (cause : Payload.Error)
  /-- A response has to be read first. -/
  | responsePending
  /-- The client has been closed. -/
  | closed
  deriving DecidableEq, Repr

/-- What an error of a frame means to a client. -/
def Error.ofFrame : Frame.Error → Error
  | .io fault => .transport fault
  | .connectionClosed => .disconnected
  | .truncated expected received => .truncatedFrame expected received
  | .payloadTooLarge size max => .frameTooLarge size max
  | .lengthOverflow size => .frameTooLarge size (lengthBound - 1)

/-- Whether an error always leaves the client closed. -/
def Error.isFatal : Error → Bool
  | .transport _ => true
  | .disconnected => true
  | .truncatedFrame _ _ => true
  | .closed => true
  | _ => false

/-- The text shown for an error. -/
def Error.message : Error → String
  | .connect cause => "connect failed: " ++ cause.message
  | .transport fault => "transport error: " ++ fault.message
  | .disconnected => "server disconnected"
  | .truncatedFrame expected received =>
    "truncated frame: expected " ++ toString expected ++ " bytes, received " ++ toString received
  | .frameTooLarge size max =>
    "frame too large (" ++ toString size ++ " bytes, max " ++ toString max ++ ")"
  | .codec cause => "codec error: " ++ cause.message
  | .responsePending => "a response is still pending"
  | .closed => "client is closed"

end FramedIpc.Client
