import FramedIpc.Command.Send
import FramedIpc.Command.Shown

/-!
# Running the Program

From a command line to an exit code and what is written. Only a result goes
to the standard output, and only if there is one; why there is none goes to
the standard error. A command line that breaks the grammar has a code of its
own.

## Main definitions

* `Outcome`: An exit code and what is written.
* `Host.perform`: Do what an invocation says.
* `Host.run`: Run the program on a command line.
-/

namespace FramedIpc

namespace Command

/-- An exit code and what is written. -/
structure Outcome where
  code : ExitCode
  /-- What goes to the standard output. -/
  output : String
  /-- What goes to the standard error, if the program itself says why. -/
  complaint : Option String
  deriving DecidableEq, Repr

namespace Outcome

/-- A result. -/
def result (output : String) : Outcome := ⟨.success, output, none⟩

/-- A failure. -/
def ofFailure (failure : Failure) : Outcome :=
  ⟨failure.code, "", some ("error: " ++ failure.message)⟩

/-- Arguments that are not understood. -/
def misused : Outcome := ⟨.misuse, "", none⟩

end Outcome

/-- The endpoint of a target, shown. -/
def performEndpoint (display : Display) (target : Target) : Except Failure String := do
  let name ← target.channelName
  let endpoint ← (Endpoint.resolve name).mapError fun e =>
    Failure.ofDial "cannot resolve endpoint" (.address e)
  return shownEndpoint display name.text endpoint

/-- What comes of a result or a failure. -/
def settled (shown : Except Failure String) : Outcome :=
  match shown with
  | .ok output => .result output
  | .error failure => .ofFailure failure

/-- How results are shown where nothing is said. -/
def standardDisplay (toTerminal : Bool) : Display :=
  if toTerminal then .table else .json

end Command

namespace Host

open Command

variable {σ : Type} (host : Host σ)

/-- Send a request and show the response, dialling in so many rounds at
    most. -/
def performSend (display : Display) (options : SendOptions) (rounds : Nat) (s : σ) :
    Option (Outcome × σ) :=
  match requestOf options with
  | .error failure => some (.ofFailure failure, s)
  | .ok request =>
    (host.request request rounds s).map fun r =>
      (settled (r.1.map fun response =>
        shownResponse display response.endpoint response.value response.elapsed), r.2)

/-- Do what an invocation says, dialling in so many rounds at most. -/
def perform (toTerminal : Bool) (invocation : Invocation) (rounds : Nat) (s : σ) :
    Option (Outcome × σ) :=
  let display := invocation.display.getD (standardDisplay toTerminal)
  match invocation.task with
  | .endpoint target => some (settled (performEndpoint display target), s)
  | .send options => host.performSend display options rounds s
  | .version extended => some (.result (shownVersion extended), s)

/-- Run the program on a command line, dialling in so many rounds at most. -/
def run (toTerminal : Bool) (environment : Option String) (args : List String) (rounds : Nat)
    (s : σ) : Option (Outcome × σ) :=
  match Invocation.ofArguments? environment args with
  | none => some (.misused, s)
  | some invocation => host.perform toTerminal invocation rounds s

end Host

end FramedIpc
