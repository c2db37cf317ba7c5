import FramedIpc.Client.Error
import FramedIpc.Frame.Exchange
import FramedIpc.Payload.Format

/-!
# Clients

A client has one request in flight at most: after a request is written its
response has to be read before the next. An error of the stream leaves the
two ends without a common place in it, so the connection is given up. A
payload that is no response does not: its frame was whole. Nor does a request
that is refused before it reaches the stream.

A client that has given up its connection, or closed it, makes no call on
the stream any more.

## Main definitions

* `Client`: A codec, a stream and a limit.
* `Client.Phase`: Where the exchange of requests and responses stands.
* `Client.write`: Write a request.
* `Client.read`: Read a response.
* `Client.send`: Both.
* `Client.close`: Shut the stream down.
-/

namespace FramedIpc

/-- How a client turns requests into frames on a stream whose state is a
    `σ`, and frames into responses. -/
structure Client (ρ τ σ : Type) where
  codec : Codec ρ τ
  stream : Stream σ
  /-- The longest payload that is read or written. -/
  maxPayload : Nat

namespace Client

/-- Where the exchange of requests and responses stands. -/
inductive Phase where
  /-- Nothing is in flight. -/
  | idle
  /-- A request has been written and its response not read. -/
  | awaiting
  /-- The connection has been closed or given up. -/
  | closed
  deriving DecidableEq, Repr

/-- Whether the connection has been closed or given up. -/
def Phase.isClosed : Phase → Bool
  | .closed => true
  | _ => false

/-- The state of a client. The stream's state stays in it when the client is
    closed, as the stream was left. -/
structure State (σ : Type) where
  stream : σ
  phase : Phase
  deriving DecidableEq, Repr

/-- A client on a stream on which nothing has happened. -/
def State.fresh {σ : Type} (stream : σ) : State σ := ⟨stream, .idle⟩

variable {ρ τ σ : Type} (client : Client ρ τ σ)

/-- Write a request. -/
def write (request : ρ) (s : State σ) : Except Error Unit × State σ :=
  match s.phase with
  | .closed => (.error .closed, s)
  | .awaiting => (.error .responsePending, s)
  | .idle =>
    match client.codec.encode request with
    | .error cause => (.error (.codec cause), s)
    | .ok payload =>
      match Frame.write client.stream client.maxPayload payload s.stream with
      | (.ok (), stream) => (.ok (), ⟨stream, .awaiting⟩)
      | (.error error, stream) =>
        -- A refused frame has not touched the stream; any other may have been cut off.
        (.error (.ofFrame error), ⟨stream, if error.isRefusal then .idle else .closed⟩)

/-- A response, or why a payload is none. -/
def decodeResponse (codec : Codec ρ τ) (payload : Bytes) : Except Error τ :=
  (codec.decode payload).mapError .codec

/-- Read a response. One may be read also when no request is in flight. -/
def read (s : State σ) : Except Error τ × State σ :=
  match s.phase with
  | .closed => (.error .closed, s)
  | _ =>
    match Frame.read client.stream client.maxPayload s.stream with
    -- Even a payload that is no response was the response.
    | (.ok payload, stream) => (decodeResponse client.codec payload, ⟨stream, .idle⟩)
    | (.error error, stream) => (.error (.ofFrame error), ⟨stream, .closed⟩)

/-- Write a request and read its response. If the request is not written
    nothing is read. -/
def send (request : ρ) (s : State σ) : Except Error τ × State σ :=
  match client.write request s with
  | (.ok (), s') => client.read s'
  | (.error error, s') => (.error error, s')

/-- Shut the stream down, however that ends. A closed client stays as it
    is. -/
def close (s : State σ) : State σ :=
  match s.phase with
  | .closed => s
  | _ => ⟨(client.stream.shutdown s.stream).2, .closed⟩

end Client

end FramedIpc
