import FramedIpc.Client.Blocking
import FramedIpc.Client.Config
import FramedIpc.Socket.Host

/-!
# Connecting Clients

A client is connected by dialling its endpoint and putting the settings of
its frames on the socket that opens. A dial need not end, so the number of
its rounds is limited here as well.

## Main definitions

* `Host.client`: The client of a host's socket.
* `Host.connect`: Dial an endpoint for a client.
* `Host.connectName`: The same, for a name.
-/

namespace FramedIpc

namespace Host

open Client

variable {σ ρ τ : Type} (host : Host σ)

/-- The client of the socket that a host has opened. -/
def client (codec : Codec ρ τ) (config : Client.Config) : Client ρ τ σ :=
  ⟨codec, host.socket.stream, config.frame.maxPayload⟩

/-- Dial an endpoint for a client, in so many rounds at most. -/
def connect (config : Client.Config) (heedsCancel : Bool) (endpoint : Endpoint) (rounds : Nat)
    (s : σ) : Option (Except Error Unit × σ) :=
  match Dialer.dialFor host.world ⟨config.retry, heedsCancel⟩ endpoint rounds s with
  | none => none
  | some run =>
    match run.result with
    | .error cause => some (.error (.connect cause), run.world)
    | .ok () =>
      match host.socket.configure config.frame run.world with
      | (.ok (), s') => some (.ok (), s')
      | (.error fault, s') => some (.error (.transport fault), s')

/-- Resolve a name and dial its endpoint for a client, in so many rounds at
    most. The endpoint comes with the connection. -/
def connectName (config : Client.Config) (heedsCancel : Bool) (name : Name) (rounds : Nat)
    (s : σ) : Option (Except Error Endpoint × σ) :=
  match Endpoint.resolve name with
  | .error cause => some (.error (.connect (.address cause)), s)
  | .ok endpoint =>
    (host.connect config heedsCancel endpoint rounds s).map fun r =>
      (r.1.map fun _ => endpoint, r.2)

end Host

end FramedIpc
