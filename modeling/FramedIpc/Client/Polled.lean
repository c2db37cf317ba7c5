import FramedIpc.Client.Blocking
import FramedIpc.Frame.Transport

/-!
# Polled Clients

The client of a polled stream keeps to the rules of the other one, but reads
and writes through a framed transport, and each of its operations may be
dropped while it waits. An operation that is dropped answers nothing; the
transport keeps its buffers, and the phase is what the operation had reached.
Closing gives up the connection whether it is waited for or not.

## Main definitions

* `PolledClient`: A codec, a polled stream and a limit.
* `PolledClient.write`: Write a request.
* `PolledClient.read`: Read a response.
* `PolledClient.send`: Both.
* `PolledClient.close`: Write out what is left and shut the stream down.
-/

namespace FramedIpc

/-- How a client turns requests into frames on a polled stream whose state is
    a `σ`, and frames into responses. -/
structure PolledClient (ρ τ σ : Type) where
  codec : Codec ρ τ
  stream : PolledStream σ
  /-- The longest payload that is read or written. -/
  maxPayload : Nat

namespace PolledClient

open Client

/-- The state of a polled client. -/
structure State (σ : Type) where
  transport : Transport σ
  phase : Phase
  deriving DecidableEq, Repr

/-- A client on a stream on which nothing has happened. -/
def State.fresh {σ : Type} (stream : σ) : State σ := ⟨.fresh stream, .idle⟩

variable {ρ τ σ : Type} (client : PolledClient ρ τ σ)

/-- Write a request, as long as the patience lasts. -/
def write (request : ρ) (patience : Nat) (s : State σ) : Waited (Except Error Unit) × State σ :=
  match s.phase with
  | .closed => (some (.error .closed, patience), s)
  | .awaiting => (some (.error .responsePending, patience), s)
  | .idle =>
    match client.codec.encode request with
    | .error cause => (some (.error (.codec cause), patience), s)
    | .ok payload =>
      match s.transport.send client.stream client.maxPayload payload patience with
      -- What the stream has not taken goes out with the next request.
      | (none, transport) => (none, ⟨transport, .idle⟩)
      | (some (.ok (), patience), transport) => (some (.ok (), patience), ⟨transport, .awaiting⟩)
      | (some (.error error, patience), transport) =>
        (some (.error (.ofFrame error), patience),
          ⟨transport, if error.isRefusal then .idle else .closed⟩)

/-- Read a response, as long as the patience lasts. -/
def read (patience : Nat) (s : State σ) : Waited (Except Error τ) × State σ :=
  match s.phase with
  | .closed => (some (.error .closed, patience), s)
  | phase =>
    match s.transport.next client.stream client.maxPayload patience with
    | (none, transport) => (none, ⟨transport, phase⟩)
    | (some (.ok (some payload), patience), transport) =>
      (some (decodeResponse client.codec payload, patience), ⟨transport, .idle⟩)
    | (some (.ok none, patience), transport) =>
      (some (.error .disconnected, patience), ⟨transport, .closed⟩)
    | (some (.error error, patience), transport) =>
      (some (.error (.ofFrame error), patience), ⟨transport, .closed⟩)

/-- Write a request and read its response, as long as the patience lasts. -/
def send (request : ρ) (patience : Nat) (s : State σ) : Waited (Except Error τ) × State σ :=
  match client.write request patience s with
  | (none, s') => (none, s')
  | (some (.ok (), patience), s') => client.read patience s'
  | (some (.error error, patience), s') => (some (.error error, patience), s')

/-- Write out what is left and shut the stream down, as long as the patience
    lasts and however that ends. The client is closed from the start. -/
def close (patience : Nat) (s : State σ) : State σ :=
  match s.phase with
  | .closed => s
  | _ => ⟨(s.transport.close client.stream patience).2, .closed⟩

end PolledClient

end FramedIpc
