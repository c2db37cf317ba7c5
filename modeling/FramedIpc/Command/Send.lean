import FramedIpc.Client.Connect
import FramedIpc.Command.Invocation
import FramedIpc.Payload.Format

/-!
# Sending a Request

The command checks everything that it was given before it dials: the name,
the request and the settings, in this order. A time limit holds for the dial
as a whole and for each read and write after it. The response has to be JSON
of any shape.

## Main definitions

* `Target.name?`: The channel name of a target.
* `clientConfig`: The settings that the options ask for.
* `Response`: A response and where it came from.
* `Host.request`: Dial, send a request and read the response.
-/

namespace FramedIpc

namespace Command

open Payload

/-- The channel name of a target, or why there is none. -/
def Target.channelName (target : Target) : Except Failure Name := do
  let name ← (Name.of target.name).mapError fun e => Failure.ofDial "invalid name" (.address e)
  match target.qualifier with
  | none => return name
  | some qualifier =>
    (name.qualified qualifier).mapError fun e => Failure.ofDial "invalid qualifier" (.address e)

/-- The request that a text is. -/
def parseRequest (json : String) : Except Failure Datum :=
  match Json.decode .anything (Text.utf8 json) with
  | .ok request => .ok request
  | .error _ => .error ⟨.usage, "--json is not valid JSON: " ++ detail⟩

/-- A policy with a limit of attempts, which has to allow one. -/
def limitAttempts (attempts : Option UInt32) (retry : Policy) : Except Failure Policy :=
  match attempts with
  | none => .ok retry
  | some attempts =>
    if attempts = 0 then .error ⟨.usage, "--max-attempts must be at least 1"⟩
    else .ok (retry.withMaxAttempts attempts)

/-- Settings with a limit of time for the dial and for every read and
    write. -/
def limitTime (timeout : Option String) (config : Client.Config) :
    Except Failure Client.Config :=
  match timeout with
  | none => .ok config
  | some text => do
    let limit ← parseDuration text
    return (config.withRetry (config.retry.withDeadline limit)).withFrame
      { config.frame with readTimeout := some limit, writeTimeout := some limit }

/-- The settings that the options ask for. -/
def clientConfig (options : SendOptions) : Except Failure Client.Config := do
  let interval ← parseDuration options.retryInterval
  let retry ← limitAttempts options.maxAttempts (Policy.every interval)
  limitTime options.timeout (Client.Config.standard.withRetry retry)

/-- A response and where it came from. -/
structure Response where
  endpoint : Endpoint
  value : Datum
  /-- The time from the start of the dial to the response. -/
  elapsed : Span

/-- What to send, where, and with which settings. -/
structure Request where
  name : Name
  value : Datum
  config : Client.Config

/-- The request that the options ask for. -/
def requestOf (options : SendOptions) : Except Failure Request := do
  let name ← options.target.channelName
  let value ← parseRequest options.json
  let config ← clientConfig options
  return ⟨name, value, config⟩

/-- The codec of requests and responses. -/
def codec : Codec Datum Datum := Format.json.codec .anything

end Command

namespace Host

open Command

variable {σ : Type} (host : Host σ)

/-- Send a request on the socket that is open, read the response, and close
    the socket. -/
def exchange (request : Request) (s : σ) : Except Failure Payload.Datum × σ :=
  let client := host.client codec request.config
  match client.send request.value (.fresh s) with
  | (.ok response, state) => (.ok response, (client.close state).stream)
  | (.error error, state) => (.error (Failure.ofClient "request failed" error), state.stream)

/-- Dial, send a request and read the response, dialling in so many rounds at
    most. -/
def request (request : Request) (rounds : Nat) (s : σ) :
    Option (Except Failure Response × σ) :=
  (host.connectName request.config false request.name rounds s).map fun r =>
    match r with
    | (.error error, s') => (.error (Failure.ofClient "connect failed" error), s')
    | (.ok endpoint, s') =>
      match host.exchange request s' with
      | (.error failure, s'') => (.error failure, s'')
      | (.ok value, s'') =>
        (.ok ⟨endpoint, value, Dial.elapsed (host.world.now s) (host.world.now s'')⟩, s'')

end Host

end FramedIpc
