import FramedIpc.Command.Run

/-!
# The Program

The command line, the environment and the two outputs. What is done, and what
is said about it, is decided by `Host.run`; here it is only handed over.

The host has no sockets, so a request is refused when it is sent. Everything
that comes before, and everything that needs no socket, works.
-/

open FramedIpc

/-- Run the program. A host without sockets fails the first attempt for good,
    so one round is enough. -/
def main (args : List String) : IO UInt32 := do
  let level ← IO.getEnv Command.levelVariable
  let toTerminal ← (← IO.getStdout).isTty
  match Host.socketless.run toTerminal level args 1 () with
  | none => return UInt32.ofNat Command.ExitCode.internal.number
  | some (outcome, _) =>
    IO.print outcome.output
    if let some complaint := outcome.complaint then
      IO.eprintln complaint
    return UInt32.ofNat outcome.code.number
