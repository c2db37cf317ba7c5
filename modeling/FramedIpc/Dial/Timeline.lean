import FramedIpc.Dial.Dialer

/-!
# Dialling along a Timeline

A timeline says what an attempt made at any moment comes to and when, if
ever, the dial is called off. Attempts take no time. Two kinds of dial run
along it. One blocks: it looks at the flag only before an attempt, so a dial
called off during a pause ends when the pause does. The other waits on the
pause and on the call at once, and ends at the moment of the call.

A waiting dial's timer counts whole milliseconds, rounding up, and takes a
wait that no clock can measure for one of thirty years.

## Main definitions

* `Timeline`: What attempts come to, and when the dial is called off.
* `Timeline.world`: The world of a dial that blocks.
* `wakeTime`: When a wait ends.
* `Policy.dialWaiting`: A dial that waits.
-/

namespace FramedIpc

namespace Dial

/-- What attempts come to, and when the dial is called off. Moments are in
    nanoseconds from the start. -/
structure Timeline (κ : Type) where
  /-- What an attempt at a moment comes to. -/
  attempt : Nat → Except Fault κ
  /-- When the dial is called off. -/
  cancelAt : Option Nat

namespace Timeline

variable {κ : Type}

/-- Whether the dial has been called off by a moment. -/
def cancelledBy (timeline : Timeline κ) (moment : Nat) : Bool :=
  match timeline.cancelAt with
  | none => false
  | some call => call ≤ moment

/-- The world of a dial that blocks: its state is the moment. -/
def world (timeline : Timeline κ) : World Nat κ where
  connect _ moment := (timeline.attempt moment, moment)
  now moment := moment
  sleep pause moment := moment + pause.toNanos
  cancelled := timeline.cancelledBy

end Timeline

/-- The nanoseconds in a tick of a waiting dial's timer. -/
def tick : Nat := 1000000

/-- The wait that stands for one which no clock can measure: thirty years. -/
def farFuture : Nat := 86400 * 365 * 30 * nanosPerSecond

/-- The longest wait that the timer can count. -/
def longestWait : Nat := 18446744073709551613 * tick

/-- When a wait ends that begins at `moment`. -/
def wakeTime (moment : Nat) (pause : Span) : Nat :=
  if 9223372036854775807 * nanosPerSecond < moment + pause.toNanos then moment + farFuture
  else min ((moment + pause.toNanos + tick - 1) / tick * tick) (moment + longestWait)

end Dial

namespace Policy

open Dial

variable {κ : Type}

/-- A waiting dial that has made `attempts` attempts and stands at `moment`,
    of so many rounds at most: its result, and the moment of it. -/
def dialWaitingFrom (timeline : Timeline κ) (policy : Policy) (endpoint : Endpoint) :
    Nat → UInt32 → Nat → Option (Except Dial.Error κ × Nat)
  | 0, _, _ => none
  | rounds + 1, attempts, moment =>
    if timeline.cancelledBy moment then
      some (.error (.cancelled endpoint attempts), moment)
    else
      match timeline.attempt moment with
      | .ok stream => some (.ok stream, moment)
      | .error fault =>
        match policy.afterFailure endpoint (countUp attempts) (Span.ofNanos moment) fault with
        | .error error => some (.error error, moment)
        | .ok pause =>
          let wake := wakeTime moment pause
          match timeline.cancelAt with
          | none => dialWaitingFrom timeline policy endpoint rounds (countUp attempts) wake
          | some call =>
            -- Of a call and the end of the pause at one moment, the call wins.
            if call ≤ wake then some (.error (.cancelled endpoint (countUp attempts)), call)
            else dialWaitingFrom timeline policy endpoint rounds (countUp attempts) wake

/-- A waiting dial of so many rounds at most. -/
def dialWaiting (timeline : Timeline κ) (policy : Policy) (endpoint : Endpoint) (rounds : Nat) :
    Option (Except Dial.Error κ × Nat) :=
  dialWaitingFrom timeline policy endpoint rounds 0 0

end Policy

end FramedIpc
