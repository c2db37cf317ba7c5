import FramedIpc.Proofs.Dial.Course

/-!
# Whether a Pause Ends in Time

A policy lets a dial pause if the pause ends by the deadline. What it has to
find out is whether the time that has gone by and the pause make more than the
deadline. A span is a pair, seconds in 64 bits and nanoseconds below one second
in 32, so the sum is found word by word: the nanoseconds may carry into the
seconds, and the seconds may have no room for the sum. Where they have none the
sum is longer than any span, a deadline among them, and so the pause is too
long; nothing is ever decided by words that wrapped round.

The words are related to the spans that they stand for (`words_add?`,
`words_longer`), and spans to their counts of nanoseconds, which have no bound
and no carry. So the decision is the one that exact arithmetic makes.

## Main definitions

* `Span.Words`, `Span.words`: A span as two machine words.
* `Span.Words.add?`: The sum of two, found in words.
* `Span.Words.longer`: Their order.
* `Policy.overrunsInWords`: Whether a pause ends after the deadline, found in
  words.

## Theorems

* `addSeconds?_eq`: A sum that wrapped round is noticed.
* `add_nanos_lt_iff`, `sub_nanos_eq`: So is a carry, and what it leaves is right.
* `words_add?`, `words_longer`: Words stand for spans.
* `overrunsInWords_eq`: Words decide as spans do.
* `afterFailure_of_time`: What follows a failure, by exact counts.
-/

namespace FramedIpc

namespace Span

/-- A span as two machine words. -/
structure Words where
  seconds : UInt64
  nanos : UInt32
  deriving DecidableEq, Repr

/-- The words of a span. -/
def words (d : Span) : Words :=
  ⟨UInt64.ofNat d.seconds, UInt32.ofNat d.nanos⟩

/-- The sum of two counts of seconds, if it did not wrap round. -/
def addSeconds? (a b : UInt64) : Option UInt64 :=
  if a + b < a then none else some (a + b)

/-- The sum of two spans found in words, if its seconds have room. -/
def Words.add? (a b : Words) : Option Words :=
  (addSeconds? a.seconds b.seconds).bind fun seconds =>
    if a.nanos + b.nanos < 1000000000 then some ⟨seconds, a.nanos + b.nanos⟩
    else
      (addSeconds? seconds 1).map fun seconds =>
        ⟨seconds, a.nanos + b.nanos - 1000000000⟩

/-- Whether `a` is longer than `b`: the seconds decide, then the rest. -/
def Words.longer (a b : Words) : Bool :=
  b.seconds < a.seconds || (a.seconds == b.seconds && b.nanos < a.nanos)

/-- A sum of seconds that wrapped round is noticed, since it is less than either
    part. -/
theorem addSeconds?_eq (a b : UInt64) :
    addSeconds? a b =
      if a.toNat + b.toNat < secondsBound then some (UInt64.ofNat (a.toNat + b.toNat))
      else none := by
  have ha := a.toNat_lt
  have hb := b.toNat_lt
  have hsum := UInt64.toNat_add a b
  have hbound : secondsBound = 18446744073709551616 := rfl
  have hwrapped : a + b < a ↔ ¬ a.toNat + b.toNat < secondsBound := by
    rw [UInt64.lt_iff_toNat_lt]
    omega
  rw [addSeconds?]
  by_cases h : a.toNat + b.toNat < secondsBound
  · rw [if_neg (fun hlt => hwrapped.mp hlt h), if_pos h, UInt64.ofNat_add, UInt64.ofNat_toNat,
      UInt64.ofNat_toNat]
  · rw [if_pos (hwrapped.mpr h), if_neg h]

theorem toNat_words_seconds (d : Span) : d.words.seconds.toNat = d.seconds :=
  UInt64.toNat_ofNat_of_lt' d.seconds_lt

theorem toNat_words_nanos (d : Span) : d.words.nanos.toNat = d.nanos := by
  have hnanos := d.nanos_lt
  rw [nanosPerSecond] at hnanos
  exact UInt32.toNat_ofNat_of_lt' (by rw [UInt32.size]; omega)

/-- The nanoseconds of two spans never make more than a word holds. -/
theorem toNat_add_nanos (a b : Span) :
    (a.words.nanos + b.words.nanos).toNat = a.nanos + b.nanos := by
  have ha := a.nanos_lt
  have hb := b.nanos_lt
  rw [nanosPerSecond] at ha hb
  rw [UInt32.toNat_add, toNat_words_nanos, toNat_words_nanos, Nat.mod_eq_of_lt (by omega)]

theorem add_nanos_eq (a b : Span) :
    a.words.nanos + b.words.nanos = UInt32.ofNat (a.nanos + b.nanos) :=
  (UInt32.ofNat_add a.nanos b.nanos).symm

/-- Whether they carry is found in words. -/
theorem add_nanos_lt_iff (a b : Span) :
    a.words.nanos + b.words.nanos < 1000000000 ↔ a.nanos + b.nanos < nanosPerSecond := by
  rw [UInt32.lt_iff_toNat_lt, toNat_add_nanos]
  exact Iff.rfl

/-- And so is what they leave if they do. -/
theorem sub_nanos_eq (a b : Span) (h : ¬ a.nanos + b.nanos < nanosPerSecond) :
    a.words.nanos + b.words.nanos - 1000000000 =
      UInt32.ofNat (a.nanos + b.nanos - nanosPerSecond) := by
  have ha := a.nanos_lt
  have hb := b.nanos_lt
  have hn : nanosPerSecond = 1000000000 := rfl
  rw [← UInt32.toNat_inj, UInt32.toNat_sub_of_le, toNat_add_nanos,
    UInt32.toNat_ofNat_of_lt' (by rw [UInt32.size]; omega)]
  · rfl
  · rw [UInt32.le_iff_toNat_le, toNat_add_nanos]
    exact Nat.le_of_not_lt h

/-- The words of a sum are the sum of the words. -/
theorem words_add? (a b : Span) : a.words.add? b.words = (a.add? b).map words := by
  have hwhole : addSeconds? a.words.seconds b.words.seconds =
      if a.seconds + b.seconds < secondsBound then
        some (UInt64.ofNat (a.seconds + b.seconds)) else none := by
    rw [addSeconds?_eq, toNat_words_seconds, toNat_words_seconds]
  rw [Words.add?, hwhole, Span.add?]
  by_cases hs : a.seconds + b.seconds < secondsBound
  · rw [if_pos hs, Option.bind_some]
    by_cases hn : a.nanos + b.nanos < nanosPerSecond
    · rw [if_pos ((add_nanos_lt_iff a b).mpr hn), dif_pos hn, dif_pos hs, Option.map_some,
        add_nanos_eq]
      rfl
    · -- The carry may be one second too many.
      rw [if_neg (mt (add_nanos_lt_iff a b).mp hn), dif_neg hn, addSeconds?_eq,
        UInt64.toNat_ofNat_of_lt' hs, UInt64.toNat_one]
      by_cases hc : a.seconds + b.seconds + 1 < secondsBound
      · rw [if_pos hc, dif_pos hc, Option.map_some, Option.map_some, sub_nanos_eq a b hn]
        rfl
      · rw [if_neg hc, dif_neg hc, Option.map_none, Option.map_none]
  · rw [if_neg hs, Option.bind_none]
    by_cases hn : a.nanos + b.nanos < nanosPerSecond
    · rw [dif_pos hn, dif_neg hs, Option.map_none]
    · rw [dif_neg hn, dif_neg (fun hc => hs (Nat.lt_of_succ_lt hc)), Option.map_none]

/-- Words are in the order of the spans that they stand for. -/
theorem words_longer (a b : Span) : a.words.longer b.words = a.longer b := by
  rw [Words.longer, longer, Bool.eq_iff_iff]
  simp only [Bool.or_eq_true, Bool.and_eq_true, decide_eq_true_eq, beq_iff_eq,
    UInt64.lt_iff_toNat_lt, UInt32.lt_iff_toNat_lt, ← UInt64.toNat_inj, toNat_words_seconds,
    toNat_words_nanos]

end Span

namespace Policy

/-- Whether a pause begun at `elapsed` would end after the deadline, found in
    words. -/
def overrunsInWords (policy : Policy) (elapsed : Span) : Bool :=
  match policy.deadline with
  | none => false
  | some deadline =>
    match elapsed.words.add? policy.interval.words with
    | none => true
    | some resume => resume.longer deadline.words

/-- Words decide as spans do. -/
theorem overrunsInWords_eq (policy : Policy) (elapsed : Span) :
    policy.overrunsInWords elapsed = policy.overruns elapsed := by
  rw [overrunsInWords, overruns]
  cases policy.deadline with
  | none => rfl
  | some deadline =>
      simp only [Span.words_add?]
      cases elapsed.add? policy.interval with
      | none => rfl
      | some resume => exact Span.words_longer resume deadline

/-- A failure that passes, within the budget, is followed by a pause exactly if
    the pause ends by the deadline, in exact nanoseconds. The count that decides
    has no bound, and is the one that the words make, whether they carry or have
    no room for the sum. -/
theorem afterFailure_of_time {policy : Policy} {attempts : UInt32} {fault : Fault}
    (hretry : Dial.isRetryable fault = true)
    (hbudget : ∀ limit, policy.maxAttempts = some limit → attempts < limit)
    (endpoint : Endpoint) (elapsed : Span) :
    (policy.deadline = none →
      policy.afterFailure endpoint attempts elapsed fault = .ok policy.interval) ∧
    (∀ deadline, policy.deadline = some deadline →
      policy.afterFailure endpoint attempts elapsed fault =
        if elapsed.toNanos + policy.interval.toNanos ≤ deadline.toNanos then .ok policy.interval
        else .error (.deadlineElapsed endpoint elapsed attempts)) ∧
    ∀ deadline, policy.deadline = some deadline →
      policy.overrunsInWords elapsed =
        decide (deadline.toNanos < elapsed.toNanos + policy.interval.toNanos) := by
  have hleft : policy.exhausted attempts = false := by
    unfold exhausted
    cases hlimit : policy.maxAttempts with
    | none => rfl
    | some limit =>
        simp only [decide_eq_false_iff_not, UInt32.not_le]
        exact hbudget limit hlimit
  -- Only the deadline is left to decide.
  have hnext : policy.afterFailure endpoint attempts elapsed fault =
      if policy.overruns elapsed then .error (.deadlineElapsed endpoint elapsed attempts)
      else .ok policy.interval := by
    rw [afterFailure, hretry, hleft]
    rfl
  have hlate : ∀ deadline, policy.deadline = some deadline →
      (policy.overruns elapsed = true ↔
        deadline.toNanos < elapsed.toNanos + policy.interval.toNanos) := by
    intro deadline hdeadline
    rw [overruns_iff, hdeadline]
    simp only [Option.some.injEq, exists_eq_left']
  refine ⟨fun hnone => ?_, fun deadline hdeadline => ?_, fun deadline hdeadline => ?_⟩
  · rw [hnext, overruns, hnone]
    rfl
  · rw [hnext]
    by_cases h : elapsed.toNanos + policy.interval.toNanos ≤ deadline.toNanos
    · rw [if_pos h, if_neg fun hover => Nat.not_lt.mpr h ((hlate deadline hdeadline).mp hover)]
    · rw [if_neg h, if_pos ((hlate deadline hdeadline).mpr (Nat.lt_of_not_le h))]
  · rw [overrunsInWords_eq, Bool.eq_iff_iff, decide_eq_true_eq]
    exact hlate deadline hdeadline

/-- After the longest span there is no time left for a nanosecond, and the sum
    that would say so has no room. Half a second after one and a half carries, and
    is just in time. -/
theorem afterFailure_of_time_longest :
    afterFailure ⟨.ofNanos 1, none, some .longest⟩ ⟨[47, 97], .unixSocket⟩ 1 .longest
        (.bare .notFound) =
      .error (.deadlineElapsed ⟨[47, 97], .unixSocket⟩ .longest 1) ∧
    afterFailure ⟨.ofMillis 500, some 2, some (.ofSeconds 2)⟩ ⟨[47, 97], .unixSocket⟩ 1
        (.ofMillis 1500) (.bare .notFound) = .ok (.ofMillis 500) := by
  refine ⟨?_, ?_⟩
  · have hexact := @afterFailure_of_time ⟨.ofNanos 1, none, some .longest⟩ 1 (.bare .notFound) rfl
      (fun _ hlimit => by cases hlimit) ⟨[47, 97], .unixSocket⟩ .longest
    rw [hexact.2.1 .longest rfl, if_neg (by decide +kernel)]
  · have hexact := @afterFailure_of_time ⟨.ofMillis 500, some 2, some (.ofSeconds 2)⟩ 1
      (.bare .notFound) rfl (fun limit hlimit => by cases hlimit; decide) ⟨[47, 97], .unixSocket⟩
      (.ofMillis 1500)
    rw [hexact.2.1 (.ofSeconds 2) rfl, if_pos (by decide +kernel)]

end Policy

end FramedIpc
