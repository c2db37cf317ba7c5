import FramedIpc.Client.Error

/-!
# Exit Codes

A script that calls the program learns from the exit code what to do next:
try again later, mend the command line, look at the data, or give up. Every
failure has one of a few codes and a text for the person at the terminal.

What decides is the cause, however deep it lies: a fault of the system has
the same code whether it came up while dialling or while reading.

## Main definitions

* `ExitCode`: How the program ended.
* `Failure`: A code and a text.
* `Failure.ofFault`, `Failure.ofDial`, `Failure.ofClient`: The failure that an
  error is.
-/

namespace FramedIpc.Command

/-- How the program ended. -/
inductive ExitCode where
  | success
  /-- The other end went away. -/
  | failure
  /-- The arguments are not understood. -/
  | misuse
  /-- There is nobody to connect to. -/
  | unavailable
  | permissionDenied
  /-- What was sent or received is not what it should be. -/
  | dataInvalid
  /-- A value on the command line is refused. -/
  | usage
  | timeout
  | internal
  deriving DecidableEq, Repr

/-- The number that the system is told. -/
def ExitCode.number : ExitCode → Nat
  | .success => 0
  | .failure => 1
  | .misuse => 2
  | .unavailable => 3
  | .permissionDenied => 50
  | .dataInvalid => 60
  | .usage => 64
  | .timeout => 124
  | .internal => 125

/-- Why the program failed. -/
structure Failure where
  code : ExitCode
  message : String
  deriving DecidableEq, Repr

namespace Failure

/-- A text under what was being done. -/
def within (context message : String) : String :=
  context ++ ": " ++ message

/-- The code of a kind of fault. -/
def codeOfKind : Fault.Kind → ExitCode
  | .permissionDenied => .permissionDenied
  | .timedOut => .timeout
  | .wouldBlock => .timeout
  | .connectionRefused => .unavailable
  | .notFound => .unavailable
  | .brokenPipe => .failure
  | .connectionReset => .failure
  | _ => .internal

/-- The failure that a fault is. -/
def ofFault (context : String) (fault : Fault) : Failure :=
  ⟨codeOfKind fault.kind, within context fault.message⟩

/-- The failure that an error of dialling is. A fault behind it stands for
    itself. -/
def ofDial (context : String) (error : Dial.Error) : Failure :=
  match error with
  | .connect _ fault => ofFault context fault
  | .stream fault => ofFault context fault
  | .address _ => ⟨.usage, within context error.message⟩
  | .deadlineElapsed _ _ _ => ⟨.timeout, within context error.message⟩
  | .retriesExhausted _ _ _ => ⟨.unavailable, within context error.message⟩
  | .cancelled _ _ => ⟨.unavailable, within context error.message⟩

/-- The failure that an error of a client is. -/
def ofClient (context : String) (error : Client.Error) : Failure :=
  match error with
  | .connect cause => ofDial context cause
  | .transport fault => ofFault context fault
  | .codec _ => ⟨.dataInvalid, within context error.message⟩
  | .frameTooLarge _ _ => ⟨.dataInvalid, within context error.message⟩
  | .truncatedFrame _ _ => ⟨.dataInvalid, within context error.message⟩
  | .disconnected => ⟨.failure, within context error.message⟩
  | .responsePending => ⟨.internal, within context error.message⟩
  | .closed => ⟨.internal, within context error.message⟩

end Failure

end FramedIpc.Command
