import FramedIpc.Dial.Script
import FramedIpc.Proofs.Dial.Course

/-!
# Why a Dial Ended

One attempt can give several reasons at once to end a dial: its failure may be
one that waiting does not mend, it may have been the last of the budget, and
the deadline may be near. What the dial reports is then the first of them, and
it reports it at once: a dial does not go on past the first attempt that gives
a reason, and it does not end before one.

The numbers in a report are true as well. A budget is reported as used up by
exactly the attempts that it allows, one at least, and a deadline together
with the time that the dial had taken.

## Main definitions

* `Cause`: What it takes for a dial to end with a result.
* `FirstReason`: Which of its reasons a failed attempt is told of.

## Theorems

* `made_eq_of_exhausted`: A budget is used up by the attempts that it allows.
* `cause_of_ending`: Every way to end has its cause.
* `firstReason_of_ending`: And tells of the first reason that it has.
* `dialFor_cause`: A dial ends at the first reason to end it, and names it.
-/

namespace FramedIpc.Dial

variable {σ κ : Type}

/-- What it takes for a dial to end with a result, where the last round began
    at `s` and left the world at `after`. -/
def Cause (world : World σ κ) (dialer : Dialer) (endpoint : Endpoint) (start : Int)
    (s after : σ) : Except Error κ → Prop
  | .ok stream => (world.connect endpoint s).1 = .ok stream
  -- The failure of the last attempt, and waiting does not mend it.
  | .error (.connect target fault) =>
    target = endpoint ∧ (world.connect endpoint s).1 = .error fault ∧ isRetryable fault = false
  -- The failure of the last attempt that the budget allowed.
  | .error (.retriesExhausted target attempts fault) =>
    target = endpoint ∧ (world.connect endpoint s).1 = .error fault ∧
      isRetryable fault = true ∧
      ∃ limit, dialer.policy.maxAttempts = some limit ∧ attempts.toNat = max 1 limit.toNat
  -- The budget allowed one more attempt, but the pause would have ended too late.
  | .error (.deadlineElapsed target time attempts) =>
    target = endpoint ∧
      (∃ fault, (world.connect endpoint s).1 = .error fault ∧ isRetryable fault = true) ∧
      (∀ limit, dialer.policy.maxAttempts = some limit → attempts.toNat < limit.toNat) ∧
      time.toNanos = min (world.now after - start).toNat Span.longest.toNanos ∧
      ∃ deadline, dialer.policy.deadline = some deadline ∧
        deadline.toNanos < time.toNanos + dialer.policy.interval.toNanos
  | .error (.cancelled target _) =>
    target = endpoint ∧ dialer.heedsCancel = true ∧ world.cancelled after = true
  -- A dial has an address, and does not set streams up.
  | .error (.address _) => False
  | .error (.stream _) => False

/-- Which of its reasons a failed attempt that ends a dial is told of: that
    waiting does not mend it, then the budget, then the deadline. -/
structure FirstReason (policy : Policy) (endpoint : Endpoint) (made : Nat) (fault : Fault)
    (result : Except Error κ) : Prop where
  refused : isRetryable fault = false → result = .error (.connect endpoint fault)
  exhausted : isRetryable fault = true →
    ∀ limit, policy.maxAttempts = some limit → limit.toNat ≤ made + 1 →
      result = .error (.retriesExhausted endpoint (tally (made + 1)) fault)
  late : isRetryable fault = true →
    (∀ limit, policy.maxAttempts = some limit → made + 1 < limit.toNat) →
      ∃ time, result = .error (.deadlineElapsed endpoint time (tally (made + 1)))

variable {world : World σ κ} {dialer : Dialer} {endpoint : Endpoint} {start : Int} {made : Nat}
  {stages : Nat → σ}

/-- A budget that is used up after a round was not used up after the rounds
    before it, so the attempts are as many as it allows. -/
theorem made_eq_of_exhausted {limit : UInt32}
    (hbefore : ∀ k < made, GoesOn world dialer endpoint start k (stages k))
    (hlimit : dialer.policy.maxAttempts = some limit) (hle : limit.toNat ≤ made + 1) :
    made + 1 = max 1 limit.toNat := by
  cases made with
  | zero => omega
  | succ made =>
      have hbudget := (hbefore made (Nat.lt_succ_self made)).budget limit hlimit
      omega

theorem cause_of_ending {last : Run σ κ}
    (hbefore : ∀ k < made, GoesOn world dialer endpoint start k (stages k))
    (h : Ending world dialer endpoint start made (stages made) last) :
    Cause world dialer endpoint start (stages made) last.world last.result := by
  cases h with
  | cancelled hoff => exact ⟨rfl, hoff⟩
  | opened hgo hconnect => exact congrArg Prod.fst hconnect
  | refused hgo hconnect hretry => exact ⟨rfl, congrArg Prod.fst hconnect, hretry⟩
  | exhausted hgo hconnect hretry hlimit hle =>
      have hmade := made_eq_of_exhausted hbefore hlimit hle
      refine ⟨rfl, congrArg Prod.fst hconnect, hretry, _, hlimit, ?_⟩
      rw [← hmade, toNat_tally, Nat.min_eq_left]
      -- A budget has 32 bits, so the count has not stopped rising.
      rw [hmade]
      exact Nat.max_le.mpr ⟨by decide, Nat.le_of_lt_succ (UInt32.toNat_lt _)⟩
  | late hgo hconnect hretry hbudget hdeadline hlate =>
      refine ⟨rfl, ⟨_, congrArg Prod.fst hconnect, hretry⟩, ?_, toNanos_elapsed _ _, _,
        hdeadline, hlate⟩
      intro limit hlimit
      have hless := hbudget limit hlimit
      rw [toNat_tally]
      omega

theorem firstReason_of_ending {s : σ} {last : Run σ κ} {fault : Fault}
    (h : Ending world dialer endpoint start made s last) (hgo : ¬ CalledOff world dialer s)
    (hfailed : (world.connect endpoint s).1 = .error fault) :
    FirstReason dialer.policy endpoint made fault last.result := by
  cases h with
  | cancelled hoff => exact absurd hoff hgo
  | opened _ hconnect =>
      rw [hconnect] at hfailed
      cases hfailed
  | refused _ hconnect hretry =>
      rw [hconnect] at hfailed
      cases hfailed
      refine ⟨fun _ => rfl, fun hretry' => ?_, fun hretry' => ?_⟩
      all_goals
        rw [hretry] at hretry'
        cases hretry'
  | exhausted _ hconnect hretry hlimit hle =>
      rw [hconnect] at hfailed
      cases hfailed
      refine ⟨fun hretry' => ?_, fun _ _ _ _ => rfl, fun _ hbudget => ?_⟩
      · rw [hretry] at hretry'
        cases hretry'
      · exact absurd (hbudget _ hlimit) (Nat.not_lt.mpr hle)
  | late _ hconnect hretry hbudget _ _ =>
      rw [hconnect] at hfailed
      cases hfailed
      refine ⟨fun hretry' => ?_, fun _ limit hlimit hle => ?_, fun _ _ => ⟨_, rfl⟩⟩
      · rw [hretry] at hretry'
        cases hretry'
      · exact absurd (hbudget limit hlimit) (Nat.not_lt.mpr hle)

/-- A dial that ends has gone through rounds that each failed for a reason that
    passes and within both limits; the round after them is the last, and its
    attempt or the flag is the cause that the result names. The first round
    that does not go by ends the dial, with the first of its reasons. -/
theorem dialFor_cause (world : World σ κ) (dialer : Dialer) (endpoint : Endpoint) (rounds : Nat)
    (s : σ) :
    (∀ run, dialer.dialFor world endpoint rounds s = some run →
      ∃ made < rounds,
        (∀ k < made, GoesOn world dialer endpoint (world.now s) k
          (stage world endpoint dialer.policy.interval k s)) ∧
        (∃ last, Ending world dialer endpoint (world.now s) made
            (stage world endpoint dialer.policy.interval made s) last ∧
          run = last.after (laps dialer.policy.interval made)) ∧
        Cause world dialer endpoint (world.now s)
          (stage world endpoint dialer.policy.interval made s) run.world run.result) ∧
    ∀ made < rounds,
      (∀ k < made, GoesOn world dialer endpoint (world.now s) k
        (stage world endpoint dialer.policy.interval k s)) →
      ¬ GoesOn world dialer endpoint (world.now s) made
        (stage world endpoint dialer.policy.interval made s) →
      ∃ last, Ending world dialer endpoint (world.now s) made
          (stage world endpoint dialer.policy.interval made s) last ∧
        dialer.dialFor world endpoint rounds s =
          some (last.after (laps dialer.policy.interval made)) ∧
        ∀ fault,
          ¬ CalledOff world dialer (stage world endpoint dialer.policy.interval made s) →
          (world.connect endpoint (stage world endpoint dialer.policy.interval made s)).1 =
            .error fault →
          FirstReason dialer.policy endpoint made fault last.result := by
  constructor
  · intro run hrun
    rcases dialFor_cases world dialer endpoint rounds s with
      ⟨made, last, hmade, hbefore, hending, hdial⟩ | ⟨_, hdial⟩
    · rw [hdial] at hrun
      cases hrun
      have hcause := cause_of_ending hbefore hending
      exact ⟨made, hmade, hbefore, ⟨last, hending, rfl⟩, hcause⟩
    · rw [hdial] at hrun
      cases hrun
  · intro made hmade hbefore hstops
    rcases dialFor_cases world dialer endpoint rounds s with
      ⟨n, last, _, hbefore', hending, hdial⟩ | ⟨hall, _⟩
    · -- The dial can have ended neither earlier nor later.
      rcases Nat.lt_trichotomy n made with hless | rfl | hless
      · exact absurd (hbefore n hless) hending.not_goesOn
      · exact ⟨last, hending, hdial, fun fault => firstReason_of_ending hending⟩
      · exact absurd (hbefore' made hless) hstops
    · exact absurd (hall made hmade) hstops

/-- The one attempt that a budget allows fails, and no pause would end in time:
    the budget is told of, unless waiting would not have mended the failure. -/
example :
    let dial := fun fault => Dialer.dialFor Script.world
      ⟨(Policy.standard.withMaxAttempts 0).withDeadline .zero, false⟩ ⟨[47, 97], .unixSocket⟩ 1
      ⟨0, [⟨.zero, .zero, false, .error (.bare fault)⟩], false, none⟩
    (dial .notFound).map Run.result =
        some (.error (.retriesExhausted ⟨[47, 97], .unixSocket⟩ 1 (.bare .notFound))) ∧
      (dial .permissionDenied).map Run.result =
        some (.error (.connect ⟨[47, 97], .unixSocket⟩ (.bare .permissionDenied))) :=
  ⟨rfl, rfl⟩

end FramedIpc.Dial
