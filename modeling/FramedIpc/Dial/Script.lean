import FramedIpc.Dial.Dialer

/-!
# Scripted Worlds

A world in which everything that happens to a dial is written down before:
how long each attempt takes, whether the clock is set back during it, whether
somebody calls the dial off, and how it ends. Attempts past the end of the
script fail for a reason that no policy retries, so every dial ends within
the script's steps and one round more.

## Main definitions

* `Script.Step`: What happens during one attempt.
* `Script`: The state of a scripted world.
* `Script.world`: The world it is the state of.
* `Dialer.dialScript`: A dial in a scripted world.
-/

namespace FramedIpc

namespace Dial

/-- What happens during one attempt. -/
structure Script.Step where
  /-- How long the attempt takes. -/
  advance : Span
  /-- How far the clock is set back at its end. -/
  rewind : Span
  /-- Whether the dial is called off during it. -/
  cancels : Bool
  /-- How it ends: with a numbered stream, or a fault. -/
  outcome : Except Fault Nat

/-- The state of a scripted world. -/
structure Script where
  /-- The reading of the clock. -/
  time : Int
  /-- The attempts to come. -/
  steps : List Script.Step
  /-- Whether dials are called off. -/
  cancelled : Bool
  /-- The sleeps until one during which dials are called off. -/
  sleepsLeft : Option Nat

namespace Script

/-- The latest time that waiting can reach. -/
def latest : Int := 4000000000000000000 * 1000000000

/-- The time after a wait. -/
def later (time : Int) (d : Span) : Int :=
  min (time + d.toNanos) latest

/-- One attempt: the next step of the script. -/
def connect (_ : Endpoint) (script : Script) : Except Fault Nat × Script :=
  match script.steps with
  | [] => (.error (.described .other "script exhausted"), script)
  | step :: steps =>
    (step.outcome,
      { script with
        time := later script.time step.advance - step.rewind.toNanos
        steps := steps
        cancelled := script.cancelled || step.cancels })

/-- One sleep, which may be the one during which dials are called off. -/
def sleep (pause : Span) (script : Script) : Script :=
  { script with
    time := later script.time pause
    cancelled := script.cancelled || script.sleepsLeft == some 1
    sleepsLeft := script.sleepsLeft.map (· - 1) }

/-- The world of a script. -/
def world : World Script Nat where
  connect := connect
  now := Script.time
  sleep := sleep
  cancelled := Script.cancelled

end Script

end Dial

namespace Dialer

open Dial

/-- A dial in a scripted world. The rounds suffice: each but the last takes a
    step of the script, and the last fails for good. -/
def dialScript (dialer : Dialer) (endpoint : Endpoint) (script : Script) :
    Option (Run Script Nat) :=
  dialer.dialFor Script.world endpoint (script.steps.length + 1) script

/-- So many dials one after another on one dialer. -/
def dialScriptTimes (dialer : Dialer) (endpoint : Endpoint) : Nat → Script →
    Option (List (Run Script Nat))
  | 0, _ => some []
  | n + 1, script => do
    let run ← dialer.dialScript endpoint script
    let runs ← dialer.dialScriptTimes endpoint n run.world
    return run :: runs

end Dialer

end FramedIpc
