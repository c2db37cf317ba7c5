import FramedIpc.Proofs.Dial.Cause
import FramedIpc.Proofs.Dial.Record

/-!
# The Verdict on a Dial

The record of a dial that cannot be called off shows why it ended, without a
look at its result. Its last entry is an attempt. If that succeeded, so did the
dial. If it failed for a reason that waiting does not mend, that is why; if it
failed because nobody listens yet, the attempts in the record are as many as
the budget allows, or the budget allowed more and it was the deadline.

## Main definitions

* `attemptsMade`: The attempts in a record.
* `Verdict`: What the record of a dial shows of each way to end.

## Theorems

* `attemptsMade_stage`: Every round that went by made one attempt.
* `verdict_of_ending`: The last round decides.
* `verdict_of_dialFor`: The record of a dial shows why it ended.
-/

namespace FramedIpc.Dial

variable {σ κ : Type}

/-- The attempts in a record. -/
def attemptsMade (record : List (Deed κ)) : Nat := record.countP Deed.isAttempt

theorem attemptsMade_concat_attempt (record : List (Deed κ)) (outcome : Except Fault κ) :
    attemptsMade (record ++ [.attempt outcome]) = attemptsMade record + 1 :=
  List.countP_append

theorem attemptsMade_concat_pause (record : List (Deed κ)) (span : Span) :
    attemptsMade (record ++ [.pause span]) = attemptsMade record :=
  List.countP_append

theorem attemptsMade_nil : attemptsMade ([] : List (Deed κ)) = 0 := rfl

/-- What the record of a dial shows of each way to end, for a dial that was
    over after the time `spent`. -/
inductive Verdict (policy : Policy) (endpoint : Endpoint) (spent : Span) (record : List (Deed κ)) :
    Except Error κ → Prop where
  | opened {before : List (Deed κ)} {stream : κ} :
      record = before ++ [.attempt (.ok stream)] →
      Verdict policy endpoint spent record (.ok stream)
  | refused {before : List (Deed κ)} {fault : Fault} :
      record = before ++ [.attempt (.error fault)] → isRetryable fault = false →
      Verdict policy endpoint spent record (.error (.connect endpoint fault))
  | exhausted {before : List (Deed κ)} {fault : Fault} {limit attempts : UInt32} :
      record = before ++ [.attempt (.error fault)] → isRetryable fault = true →
      policy.maxAttempts = some limit → attemptsMade record = max 1 limit.toNat →
      Verdict policy endpoint spent record (.error (.retriesExhausted endpoint attempts fault))
  | late {before : List (Deed κ)} {fault : Fault} {deadline : Span} {attempts : UInt32} :
      record = before ++ [.attempt (.error fault)] → isRetryable fault = true →
      (∀ limit, policy.maxAttempts = some limit → attemptsMade record < limit.toNat) →
      policy.deadline = some deadline →
      deadline.toNanos < spent.toNanos + policy.interval.toNanos →
      Verdict policy endpoint spent record (.error (.deadlineElapsed endpoint spent attempts))

variable {world : World σ κ} {dialer : Dialer} {endpoint : Endpoint}

/-- Every round that went by made one attempt. -/
theorem attemptsMade_stage (world : World σ κ) (endpoint : Endpoint) (pause : Span) (n : Nat)
    (s : σ × List (Deed κ)) :
    attemptsMade (stage world.recorded endpoint pause n s).2 = attemptsMade s.2 + n := by
  induction n with
  | zero => rfl
  | succ n ih =>
      rw [stage_succ]
      simp only [World.recorded, attemptsMade_concat_pause, attemptsMade_concat_attempt]
      rw [← Nat.add_assoc, ← ih]
      rfl

theorem verdict_of_ending {start : Int} {made : Nat} {s : σ × List (Deed κ)}
    {last : Run (σ × List (Deed κ)) κ} (hoff : dialer.heedsCancel = false)
    (hbefore : ∀ k < made, GoesOn world.recorded dialer endpoint start k
      (stage world.recorded endpoint dialer.policy.interval k s))
    (h : Ending world.recorded dialer endpoint start made
      (stage world.recorded endpoint dialer.policy.interval made s) last) (hblank : s.2 = []) :
    Verdict dialer.policy endpoint (elapsed start (world.now last.world.1)) last.world.2
      last.result := by
  have hmade := attemptsMade_stage world endpoint dialer.policy.interval made s
  rw [hblank, attemptsMade_nil, Nat.zero_add] at hmade
  cases h with
  | cancelled hcalled =>
      rw [CalledOff, hoff] at hcalled
      cases hcalled.1
  | opened _ hconnect => exact .opened (recorded_connect hconnect)
  | refused _ hconnect hretry => exact .refused (recorded_connect hconnect) hretry
  | exhausted _ hconnect hretry hlimit hle =>
      -- The rounds that went by made one attempt each, and this one makes the last.
      refine .exhausted (recorded_connect hconnect) hretry hlimit ?_
      rw [recorded_connect hconnect, attemptsMade_concat_attempt, hmade]
      exact made_eq_of_exhausted hbefore hlimit hle
  | late _ hconnect hretry hbudget hdeadline hlate =>
      refine .late (recorded_connect hconnect) hretry (fun limit hlimit => ?_) hdeadline hlate
      rw [recorded_connect hconnect, attemptsMade_concat_attempt, hmade]
      exact hbudget limit hlimit

/-- The record of a dial shows why it ended, if nobody can call it off. -/
theorem verdict_of_dialFor {rounds : Nat} {s : σ} {run : Run (σ × List (Deed κ)) κ}
    (hoff : dialer.heedsCancel = false)
    (h : dialer.dialFor world.recorded endpoint rounds (s, []) = some run) :
    Verdict dialer.policy endpoint (elapsed (world.now s) (world.now run.world.1)) run.world.2
      run.result := by
  rcases dialFor_cases world.recorded dialer endpoint rounds (s, []) with
    ⟨made, last, _, hbefore, hending, hdial⟩ | ⟨_, hdial⟩
  · rw [hdial] at h
    cases h
    -- The rounds before the last change what the dial reports, but not how it ended.
    have hverdict := verdict_of_ending hoff hbefore hending rfl
    exact hverdict
  · rw [hdial] at h
    cases h

end FramedIpc.Dial
