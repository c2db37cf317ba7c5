import FramedIpc.Address.Endpoint
import FramedIpc.Fault
import FramedIpc.Time.Span

/-!
# Errors of Dialling

Why there is no connection: no address to dial, a failure that waiting does
not mend, a limit of the policy reached, or a dial called off.

## Main definitions

* `Dial.Error`: Why there is no connection.
* `Dial.Error.message`: The text shown for it.
-/

namespace FramedIpc.Dial

/-- Why there is no connection. -/
inductive Error where
  /-- There is no address to dial. -/
  | address (cause : Address.Error)
  /-- The attempt failed in a way that waiting does not mend. -/
  | connect (endpoint : Endpoint) (fault : Fault)
  /-- As many attempts as allowed were made. -/
  | retriesExhausted (endpoint : Endpoint) (attempts : UInt32) (fault : Fault)
  /-- The next pause would end after the deadline. -/
  | deadlineElapsed (endpoint : Endpoint) (elapsed : Span) (attempts : UInt32)
  /-- The dial was called off. -/
  | cancelled (endpoint : Endpoint) (attempts : UInt32)
  /-- The open connection could not be set up. -/
  | stream (fault : Fault)
  deriving DecidableEq, Repr

/-- The text shown for an error. -/
def Error.message : Error → String
  | .address cause => cause.message
  | .connect endpoint fault =>
    "failed to connect to " ++ endpoint.text ++ ": " ++ fault.message
  | .retriesExhausted endpoint attempts fault =>
    "endpoint " ++ endpoint.text ++ " still unavailable after " ++ toString attempts.toNat
      ++ " attempts: " ++ fault.message
  | .deadlineElapsed endpoint elapsed attempts =>
    "endpoint " ++ endpoint.text ++ " still unavailable after " ++ elapsed.text ++ " ("
      ++ toString attempts.toNat ++ " attempts)"
  | .cancelled endpoint attempts =>
    "dial to " ++ endpoint.text ++ " cancelled after " ++ toString attempts.toNat ++ " attempts"
  | .stream fault => "transport I/O error: " ++ fault.message

end FramedIpc.Dial
