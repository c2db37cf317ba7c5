import FramedIpc.Dial.Error

/-!
# Retry Policies

A client often starts before its server, so a failed attempt that only says
"nobody listens yet" is tried again after a pause. A policy says how long the
pauses are and when to stop: after so many attempts, or once the next pause
would end after the deadline.

What follows a failure is decided in a fixed order. A failure that waiting
does not mend ends the dial whatever the limits; a used-up budget of attempts
comes before the deadline.

## Main definitions

* `Policy`: How long and how often to retry.
* `isRetryable`: Whether a failure only says that nobody listens yet.
* `Policy.overruns`: Whether a pause would end after the deadline.
* `Policy.afterFailure`: What follows a failed attempt.

## Theorems

* `Policy.overruns_iff`: The deadline is kept in exact nanoseconds.
-/

namespace FramedIpc

/-- How long and how often to retry. -/
structure Policy where
  /-- The pause between two attempts. -/
  interval : Span
  /-- How many attempts are allowed, the first included. -/
  maxAttempts : Option UInt32
  /-- How long after its start a dial may still pause. -/
  deadline : Option Span
  deriving DecidableEq, Repr

namespace Policy

/-- Retry at an interval without a limit. -/
def every (interval : Span) : Policy :=
  ⟨interval, none, none⟩

/-- Retry every hundred milliseconds without a limit. -/
def standard : Policy :=
  every (Span.ofMillis 100)

/-- Allow so many attempts. The first attempt is always made, so zero counts
    as one. -/
def withMaxAttempts (policy : Policy) (attempts : UInt32) : Policy :=
  { policy with maxAttempts := some (if attempts = 0 then 1 else attempts) }

/-- Allow pauses that end so long after the start. -/
def withDeadline (policy : Policy) (deadline : Span) : Policy :=
  { policy with deadline := some deadline }

/-- Whether the attempts made use up the budget. -/
def exhausted (policy : Policy) (attempts : UInt32) : Bool :=
  match policy.maxAttempts with
  | none => false
  | some limit => limit ≤ attempts

/-- Whether a pause begun at `elapsed` would end after the deadline. A sum
    that is too long for a span ends after every deadline. -/
def overruns (policy : Policy) (elapsed : Span) : Bool :=
  match policy.deadline with
  | none => false
  | some deadline =>
    -- The sum is looked for before it is compared: it may be no span.
    match elapsed.add? policy.interval with
    | none => true
    | some resume => resume.longer deadline

theorem overruns_iff (policy : Policy) (elapsed : Span) :
    policy.overruns elapsed = true ↔
      ∃ deadline, policy.deadline = some deadline ∧
        deadline.toNanos < elapsed.toNanos + policy.interval.toNanos := by
  unfold overruns
  cases hd : policy.deadline with
  | none => simp only [Bool.false_eq_true, reduceCtorEq, false_and, exists_false]
  | some deadline =>
      simp only [Option.some.injEq, exists_eq_left']
      cases hs : elapsed.add? policy.interval with
      | none =>
          have := Span.add?_eq_none_iff.1 hs
          have := deadline.toNanos_lt
          simp only [true_iff]
          omega
      | some resume =>
          rw [← Span.add?_eq_some_iff.1 hs]
          exact Span.longer_iff

end Policy

namespace Dial

/-- Whether a failure only says that nobody listens yet. -/
def isRetryable (fault : Fault) : Bool :=
  match fault.kind with
  | .notFound => true
  | .connectionRefused => true
  | _ => false

end Dial

namespace Policy

/-- What follows a failed attempt: the pause before the next one, or the
    error that ends the dial. -/
def afterFailure (policy : Policy) (endpoint : Endpoint) (attempts : UInt32) (elapsed : Span)
    (fault : Fault) : Except Dial.Error Span :=
  if !Dial.isRetryable fault then .error (.connect endpoint fault)
  else if policy.exhausted attempts then .error (.retriesExhausted endpoint attempts fault)
  else if policy.overruns elapsed then .error (.deadlineElapsed endpoint elapsed attempts)
  else .ok policy.interval

end Policy

end FramedIpc
