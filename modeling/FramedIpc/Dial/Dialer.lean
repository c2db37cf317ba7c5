import FramedIpc.Dial.Policy

/-!
# Dialling

A dial tries to connect until an attempt succeeds, the policy ends it, or it
is called off. What it touches, the connector, the clock and the flag that
calls it off, is a `World`: a state and what each call does to it. Nothing is
assumed of a world, so its clock may jump and its flag may be raised during
any call.

A dial without limits need not end. `dialFor` therefore takes a number of
rounds and answers nothing if they do not suffice; a dial returns exactly if
some number of rounds does.

## Main definitions

* `World`: What a dial touches.
* `Dialer`: A policy, and whether the dial can be called off.
* `Event`: What a dial does to the world.
* `Run`: How a dial went.
* `Dialer.dialFor`: A dial of so many rounds at most.
-/

namespace FramedIpc

namespace Dial

/-- What a dial touches: `σ` is the state of it all, `κ` an open stream. -/
structure World (σ κ : Type) where
  /-- Make one attempt. -/
  connect : Endpoint → σ → Except Fault κ × σ
  /-- Read the clock, in nanoseconds from any origin. -/
  now : σ → Int
  /-- Wait. -/
  sleep : Span → σ → σ
  /-- Whether the flag that calls dials off is raised. -/
  cancelled : σ → Bool

/-- What a dial does to the world. -/
inductive Event where
  | connect
  | sleep (pause : Span)
  deriving DecidableEq, Repr

/-- How a dial went. -/
structure Run (σ κ : Type) where
  /-- The open stream, or why there is none. -/
  result : Except Error κ
  /-- What the dial did, in order. -/
  events : List Event
  /-- The world afterwards. -/
  world : σ

/-- A run that had done `events` before. -/
def Run.after {σ κ : Type} (events : List Event) (run : Run σ κ) : Run σ κ :=
  { run with events := events ++ run.events }

/-- The time from `start` to `now`. A clock that went back shows none. -/
def elapsed (start now : Int) : Span :=
  Span.ofNanos (now - start).toNat

/-- One attempt more. The count stays at the largest number it can show. -/
def countUp (attempts : UInt32) : UInt32 :=
  if attempts.toNat + 1 < 4294967296 then attempts + 1 else attempts

end Dial

open Dial

/-- A policy, and whether the dial can be called off. -/
structure Dialer where
  policy : Policy
  /-- Whether the dial looks at the flag before each attempt. -/
  heedsCancel : Bool
  deriving DecidableEq, Repr

namespace Dialer

variable {σ κ : Type}

/-- A dial that began at `start` and has made `attempts` attempts, of so many
    rounds at most. -/
def dialFrom (world : World σ κ) (dialer : Dialer) (endpoint : Endpoint) (start : Int) :
    Nat → UInt32 → σ → Option (Run σ κ)
  | 0, _, _ => none
  | rounds + 1, attempts, s =>
    if dialer.heedsCancel && world.cancelled s then
      some ⟨.error (.cancelled endpoint attempts), [], s⟩
    else
      -- An attempt that succeeds counts even if the dial was called off during it.
      match world.connect endpoint s with
      | (.ok stream, s') => some ⟨.ok stream, [.connect], s'⟩
      | (.error fault, s') =>
        match dialer.policy.afterFailure endpoint (countUp attempts)
            (elapsed start (world.now s')) fault with
        | .error error => some ⟨.error error, [.connect], s'⟩
        | .ok pause =>
          (dialFrom world dialer endpoint start rounds (countUp attempts)
            (world.sleep pause s')).map (Run.after [.connect, .sleep pause])

/-- A dial of so many rounds at most. -/
def dialFor (world : World σ κ) (dialer : Dialer) (endpoint : Endpoint) (rounds : Nat) (s : σ) :
    Option (Run σ κ) :=
  dialFrom world dialer endpoint (world.now s) rounds 0 s

end Dialer

end FramedIpc
