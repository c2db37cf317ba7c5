import FramedIpc.Dial.Dialer

/-!
# The Course of a Dial

A dial is a row of rounds that are all alike: an attempt that fails for a
reason that passes, and a pause. Only the last round is different, and there
are five ways for it to be, told apart by what is looked at first: the flag,
the attempt, the kind of its failure, the budget, the deadline.

So a dial is known once it is known how many rounds went by. `stage` is the
world after so many of them. Whether one more goes by is decided there
(`GoesOn`), and so is how the dial ends if none does (`Ending`); the two
exclude each other. A dial of so many rounds at most has either come to the
first stage where it does not go on, or to the last of its rounds
(`dialFor_cases`), and nothing after this module looks into the loop again.

Attempts are counted in 32 bits, but the count is never lowered and never
wraps, so it is the number of rounds as far as that can be shown (`tally`).

## Main definitions

* `tally`: The count after so many attempts.
* `stage`: The world after so many rounds.
* `laps`: What so many rounds have done to it.
* `GoesOn`: Whether a round goes by.
* `Ending`: The ways that the last round can go.

## Theorems

* `exhausted_tally_iff`: A budget is used up by the attempts that were made.
* `toNanos_elapsed`: The time that a dial has taken.
* `laps_front`, `laps_append_front`: More rounds begin with fewer.
* `stage_keeps`: What every round keeps holds at every stage.
* `round_cases`: What one round can come to.
* `Ending.unique`: There is one way only for a round to be the last.
* `goesOn_of_afterFailure`: A round goes by if a pause follows its attempt.
* `dialFrom_cases`, `dialFor_cases`: What any number of rounds can come to.
* `dialFor_of_ending`: The first round that ends a dial is its last.
-/

namespace FramedIpc.Dial

/-- The count of attempts after so many. -/
def tally (made : Nat) : UInt32 :=
  UInt32.ofNat (min made 4294967295)

theorem toNat_tally (made : Nat) : (tally made).toNat = min made 4294967295 := by
  rw [tally, UInt32.toNat_ofNat_of_lt' (by rw [UInt32.size]; omega)]

theorem countUp_tally (made : Nat) : countUp (tally made) = tally (made + 1) := by
  have hmade := toNat_tally made
  rw [← UInt32.toNat_inj, toNat_tally, countUp]
  by_cases h : (tally made).toNat + 1 < 4294967296
  · rw [if_pos h, UInt32.toNat_add, Nat.mod_eq_of_lt (by rw [UInt32.toNat_one]; exact h), hmade,
      UInt32.toNat_one]
    omega
  · rw [if_neg h, hmade]
    omega

/-- A budget of attempts is used up when so many were made. A count that has
    stopped rising is the largest budget there is. -/
theorem exhausted_tally_iff (policy : Policy) (made : Nat) :
    policy.exhausted (tally made) = true ↔
      ∃ limit, policy.maxAttempts = some limit ∧ limit.toNat ≤ made := by
  unfold Policy.exhausted
  cases policy.maxAttempts with
  | none => simp only [Bool.false_eq_true, reduceCtorEq, false_and, exists_false]
  | some limit =>
      have hlimit := limit.toNat_lt
      simp only [decide_eq_true_eq, UInt32.le_iff_toNat_le, toNat_tally, Option.some.injEq,
        exists_eq_left']
      omega

theorem isRetryable_iff (fault : Fault) :
    isRetryable fault = true ↔ fault.kind = .notFound ∨ fault.kind = .connectionRefused := by
  unfold isRetryable
  split
  · rename_i h
    simp only [h, true_or]
  · rename_i h
    simp only [h, or_true]
  · rename_i h h'
    simp only [Bool.false_eq_true, false_iff, not_or]
    exact ⟨h, h'⟩

/-- A span shows the time since the start, unless the clock has gone back or
    the time is longer than any span. -/
theorem toNanos_elapsed (start now : Int) :
    (elapsed start now).toNanos = min (now - start).toNat Span.longest.toNanos :=
  Span.toNanos_ofNanos _

section Rounds

variable {σ κ : Type}

/-- The world after so many rounds, each an attempt and a pause. -/
def stage (world : World σ κ) (endpoint : Endpoint) (pause : Span) : Nat → σ → σ
  | 0, s => s
  | n + 1, s => stage world endpoint pause n (world.sleep pause (world.connect endpoint s).2)

/-- What so many rounds have done to the world. -/
def laps (pause : Span) (n : Nat) : List Event :=
  (List.replicate n [.connect, .sleep pause]).flatten

variable (world : World σ κ) (dialer : Dialer) (endpoint : Endpoint)

/-- Whether the dial is called off here. -/
def CalledOff (s : σ) : Prop :=
  dialer.heedsCancel = true ∧ world.cancelled s = true

/-- Whether a round goes by that begins here, after `made` attempts: the
    attempt fails for a reason that passes, and the limits allow one more. -/
structure GoesOn (start : Int) (made : Nat) (s : σ) : Prop where
  heeded : ¬ CalledOff world dialer s
  failed : ∃ fault, (world.connect endpoint s).1 = .error fault ∧ isRetryable fault = true
  budget : ∀ limit, dialer.policy.maxAttempts = some limit → made + 1 < limit.toNat
  time : ∀ deadline, dialer.policy.deadline = some deadline →
    (elapsed start (world.now (world.connect endpoint s).2)).toNanos +
      dialer.policy.interval.toNanos ≤ deadline.toNanos

/-- The ways that a round can be the last, after `made` attempts. Each rules
    out those before it. -/
inductive Ending (start : Int) (made : Nat) (s : σ) : Run σ κ → Prop where
  | cancelled :
      CalledOff world dialer s →
      Ending start made s ⟨.error (.cancelled endpoint (tally made)), [], s⟩
  | opened {stream : κ} {s' : σ} :
      ¬ CalledOff world dialer s → world.connect endpoint s = (.ok stream, s') →
      Ending start made s ⟨.ok stream, [.connect], s'⟩
  | refused {fault : Fault} {s' : σ} :
      ¬ CalledOff world dialer s → world.connect endpoint s = (.error fault, s') →
      isRetryable fault = false →
      Ending start made s ⟨.error (.connect endpoint fault), [.connect], s'⟩
  | exhausted {fault : Fault} {s' : σ} {limit : UInt32} :
      ¬ CalledOff world dialer s → world.connect endpoint s = (.error fault, s') →
      isRetryable fault = true →
      dialer.policy.maxAttempts = some limit → limit.toNat ≤ made + 1 →
      Ending start made s
        ⟨.error (.retriesExhausted endpoint (tally (made + 1)) fault), [.connect], s'⟩
  | late {fault : Fault} {s' : σ} {deadline : Span} :
      ¬ CalledOff world dialer s → world.connect endpoint s = (.error fault, s') →
      isRetryable fault = true →
      (∀ limit, dialer.policy.maxAttempts = some limit → made + 1 < limit.toNat) →
      dialer.policy.deadline = some deadline →
      deadline.toNanos <
        (elapsed start (world.now s')).toNanos + dialer.policy.interval.toNanos →
      Ending start made s
        ⟨.error (.deadlineElapsed endpoint (elapsed start (world.now s')) (tally (made + 1))),
          [.connect], s'⟩

variable {world dialer endpoint}

theorem laps_succ (pause : Span) (n : Nat) :
    laps pause (n + 1) = [.connect, .sleep pause] ++ laps pause n := by
  rw [laps, laps, List.replicate_succ, List.flatten_cons]

theorem laps_concat (pause : Span) (n : Nat) :
    laps pause (n + 1) = laps pause n ++ [.connect, .sleep pause] := by
  rw [laps, laps, List.replicate_succ', List.flatten_append, List.flatten_singleton]

theorem count_connect_laps (pause : Span) (n : Nat) :
    (laps pause n).count .connect = n := by
  induction n with
  | zero => rfl
  | succ n ih =>
      rw [laps_concat, List.count_append, ih]
      rfl

theorem length_laps (pause : Span) (n : Nat) : (laps pause n).length = 2 * n := by
  induction n with
  | zero => rfl
  | succ n ih =>
      rw [laps_concat, List.length_append, ih]
      rfl

/-- More rounds that go by begin with fewer of them. -/
theorem laps_front {pause : Span} {n m : Nat} (h : n ≤ m) : laps pause n <+: laps pause m := by
  induction h with
  | refl => exact List.prefix_refl _
  | step _ ih =>
      rw [laps_concat]
      exact ih.trans (List.prefix_append _ _)

/-- They begin with a last round too, if there are more of them. -/
theorem laps_append_front {pause : Span} {n m : Nat} {events : List Event} (h : n < m)
    (hevents : events = [] ∨ events = [Event.connect]) :
    laps pause n ++ events <+: laps pause m := by
  have hlap : laps pause n ++ events <+: laps pause (n + 1) := by
    rw [laps_concat]
    refine (List.prefix_append_right_inj _).mpr ?_
    rcases hevents with rfl | rfl
    · exact List.nil_prefix
    · exact List.prefix_append [Event.connect] [.sleep pause]
  exact hlap.trans (laps_front h)

/-- The last round seen apart from those before it. -/
theorem stage_succ (pause : Span) (n : Nat) (s : σ) :
    stage world endpoint pause (n + 1) s =
      world.sleep pause (world.connect endpoint (stage world endpoint pause n s)).2 := by
  induction n generalizing s with
  | zero => rfl
  | succ n ih => exact ih (world.sleep pause (world.connect endpoint s).2)

/-- What every round that goes by keeps holds after any number of them. -/
theorem stage_keeps {P : Nat → σ → Prop} {start : Int} {n : Nat} {s : σ} (h : P 0 s)
    (hround : ∀ k s', GoesOn world dialer endpoint start k s' → P k s' →
      P (k + 1) (world.sleep dialer.policy.interval (world.connect endpoint s').2))
    (hall : ∀ k < n, GoesOn world dialer endpoint start k
      (stage world endpoint dialer.policy.interval k s)) :
    P n (stage world endpoint dialer.policy.interval n s) := by
  induction n with
  | zero => exact h
  | succ n ih =>
      have hbefore := ih fun k hk => hall k (Nat.lt_succ_of_lt hk)
      rw [stage_succ]
      exact hround n _ (hall n (Nat.lt_succ_self n)) hbefore

theorem after_after (run : Run σ κ) (first second : List Event) :
    (run.after second).after first = run.after (first ++ second) := by
  simp only [Run.after, List.append_assoc]

/-- A round that ends the dial does not go by. -/
theorem Ending.not_goesOn {start : Int} {made : Nat} {s : σ} {run : Run σ κ}
    (h : Ending world dialer endpoint start made s run) :
    ¬ GoesOn world dialer endpoint start made s := by
  intro hgoes
  rcases hgoes.failed with ⟨fault', hfailed, hretry'⟩
  cases h with
  | cancelled hoff => exact hgoes.heeded hoff
  | opened _ hconnect =>
      rw [hconnect] at hfailed
      cases hfailed
  | refused _ hconnect hretry =>
      rw [hconnect] at hfailed
      cases hfailed
      rw [hretry] at hretry'
      cases hretry'
  | exhausted _ _ _ hlimit hle =>
      have hbudget := hgoes.budget _ hlimit
      omega
  | late _ hconnect _ _ hdeadline hlate =>
      have htime := hgoes.time _ hdeadline
      simp only [hconnect] at htime
      omega

/-- What one round can come to: it ends the dial, or goes by and leaves the
    dial one round fewer. -/
theorem round_cases (world : World σ κ) (dialer : Dialer) (endpoint : Endpoint) (start : Int)
    (rounds made : Nat) (s : σ) :
    (∃ run, Ending world dialer endpoint start made s run ∧
        dialer.dialFrom world endpoint start (rounds + 1) (tally made) s = some run) ∨
      (GoesOn world dialer endpoint start made s ∧
        dialer.dialFrom world endpoint start (rounds + 1) (tally made) s =
          (dialer.dialFrom world endpoint start rounds (tally (made + 1))
            (world.sleep dialer.policy.interval (world.connect endpoint s).2)).map
            (Run.after [.connect, .sleep dialer.policy.interval])) := by
  rw [Dialer.dialFrom, countUp_tally]
  by_cases hoff : CalledOff world dialer s
  · rw [if_pos (by rw [hoff.1, hoff.2]; rfl)]
    exact Or.inl ⟨_, .cancelled hoff, rfl⟩
  rw [if_neg (by rw [Bool.and_eq_true]; exact hoff)]
  rcases hconnect : world.connect endpoint s with ⟨fault | stream, s'⟩
  · simp only [Policy.afterFailure]
    by_cases hretry : isRetryable fault = true
    · rw [hretry]
      by_cases hspent : dialer.policy.exhausted (tally (made + 1)) = true
      · rcases (exhausted_tally_iff _ _).mp hspent with ⟨limit, hlimit, hle⟩
        refine Or.inl ⟨_, .exhausted hoff hconnect hretry hlimit hle, ?_⟩
        simp only [hspent, Bool.not_true, Bool.false_eq_true, if_false, if_true]
      have hbudget : ∀ limit, dialer.policy.maxAttempts = some limit →
          made + 1 < limit.toNat := by
        intro limit hlimit
        exact Nat.lt_of_not_le fun hle =>
          hspent ((exhausted_tally_iff _ _).mpr ⟨limit, hlimit, hle⟩)
      by_cases hlate : dialer.policy.overruns (elapsed start (world.now s')) = true
      · rcases (Policy.overruns_iff _ _).mp hlate with ⟨deadline, hdeadline, hless⟩
        refine Or.inl ⟨_, .late hoff hconnect hretry hbudget hdeadline hless, ?_⟩
        simp only [hspent, hlate, Bool.not_true, Bool.false_eq_true, if_false, if_true]
      · refine Or.inr ⟨⟨hoff, ⟨fault, by rw [hconnect], hretry⟩, hbudget, ?_⟩, ?_⟩
        · intro deadline hdeadline
          rw [hconnect]
          exact Nat.le_of_not_lt fun hless =>
            hlate ((Policy.overruns_iff _ _).mpr ⟨deadline, hdeadline, hless⟩)
        · simp only [hspent, hlate, Bool.not_true, Bool.false_eq_true, if_false]
    · rw [Bool.not_eq_true] at hretry
      refine Or.inl ⟨_, .refused hoff hconnect hretry, ?_⟩
      simp only [hretry, Bool.not_false, if_true]
  · exact Or.inl ⟨_, .opened hoff hconnect, rfl⟩

/-- A round that ends the dial does so however many rounds there are. -/
theorem dialFrom_of_ending {start : Int} {made : Nat} {s : σ} {last : Run σ κ}
    (h : Ending world dialer endpoint start made s last) (rounds : Nat) :
    dialer.dialFrom world endpoint start (rounds + 1) (tally made) s = some last := by
  -- A round that comes to its attempt is one in which the flag is not heeded.
  have hheeded : ¬ CalledOff world dialer s →
      ¬ (dialer.heedsCancel && world.cancelled s) = true := by
    intro hgo
    rw [Bool.and_eq_true]
    exact hgo
  rw [Dialer.dialFrom, countUp_tally]
  cases h with
  | cancelled hoff => rw [if_pos (by rw [hoff.1, hoff.2]; rfl)]
  | opened hgo hconnect => rw [if_neg (hheeded hgo), hconnect]
  | refused hgo hconnect hretry =>
      rw [if_neg (hheeded hgo), hconnect]
      simp only [Policy.afterFailure, hretry, Bool.not_false, if_true]
  | exhausted hgo hconnect hretry hlimit hle =>
      have hspent := (exhausted_tally_iff dialer.policy (made + 1)).mpr ⟨_, hlimit, hle⟩
      rw [if_neg (hheeded hgo), hconnect]
      simp only [Policy.afterFailure, hretry, hspent, Bool.not_true, Bool.false_eq_true, if_false,
        if_true]
  | late hgo hconnect hretry hbudget hdeadline hless =>
      have hleft : dialer.policy.exhausted (tally (made + 1)) = false := by
        rw [Bool.eq_false_iff]
        intro hspent
        rcases (exhausted_tally_iff dialer.policy (made + 1)).mp hspent with ⟨limit, hlimit, hle⟩
        have hmore := hbudget limit hlimit
        omega
      have hlate := (Policy.overruns_iff dialer.policy _).mpr ⟨_, hdeadline, hless⟩
      rw [if_neg (hheeded hgo), hconnect]
      simp only [Policy.afterFailure, hretry, hleft, hlate, Bool.not_true, Bool.false_eq_true,
        if_false, if_true]

/-- There is one way only for a round to be the last. -/
theorem Ending.unique {start : Int} {made : Nat} {s : σ} {last last' : Run σ κ}
    (h : Ending world dialer endpoint start made s last)
    (h' : Ending world dialer endpoint start made s last') : last = last' := by
  have hdial := dialFrom_of_ending h 0
  rw [dialFrom_of_ending h' 0] at hdial
  exact (Option.some.inj hdial).symm

/-- The last round makes an attempt unless the dial is called off. -/
theorem Ending.events_eq {start : Int} {made : Nat} {s : σ} {last : Run σ κ}
    (h : Ending world dialer endpoint start made s last) :
    (CalledOff world dialer s ∧ last.events = []) ∨
      (¬ CalledOff world dialer s ∧ last.events = [.connect]) := by
  cases h with
  | cancelled hoff => exact Or.inl ⟨hoff, rfl⟩
  | opened hgo _ => exact Or.inr ⟨hgo, rfl⟩
  | refused hgo _ _ => exact Or.inr ⟨hgo, rfl⟩
  | exhausted hgo _ _ _ _ => exact Or.inr ⟨hgo, rfl⟩
  | late hgo _ _ _ _ _ => exact Or.inr ⟨hgo, rfl⟩

/-- A round goes by if its attempt fails and a pause follows. -/
theorem goesOn_of_afterFailure {start : Int} {made : Nat} {s : σ} {fault : Fault} {pause : Span}
    (hoff : ¬ CalledOff world dialer s) (hfailed : (world.connect endpoint s).1 = .error fault)
    (hpause : dialer.policy.afterFailure endpoint (tally (made + 1))
      (elapsed start (world.now (world.connect endpoint s).2)) fault = .ok pause) :
    GoesOn world dialer endpoint start made s := by
  rcases round_cases world dialer endpoint start 0 made s with ⟨run, _, hrun⟩ | ⟨hgoes, _⟩
  · -- A dial of one round is not over after it.
    rcases hconnect : world.connect endpoint s with ⟨outcome, s'⟩
    rw [hconnect] at hfailed hpause
    simp only [] at hfailed hpause
    rw [Dialer.dialFrom, countUp_tally, if_neg (by rw [Bool.and_eq_true]; exact hoff), hconnect,
      hfailed] at hrun
    simp only [hpause] at hrun
    cases hrun
  · exact hgoes

/-- What any number of rounds can come to: after some that go by there is one
    that ends the dial, or all of them go by. -/
theorem dialFrom_cases (world : World σ κ) (dialer : Dialer) (endpoint : Endpoint) (start : Int)
    (rounds made : Nat) (s : σ) :
    (∃ n last, n < rounds ∧
        (∀ k < n, GoesOn world dialer endpoint start (made + k)
          (stage world endpoint dialer.policy.interval k s)) ∧
        Ending world dialer endpoint start (made + n)
          (stage world endpoint dialer.policy.interval n s) last ∧
        dialer.dialFrom world endpoint start rounds (tally made) s =
          some (last.after (laps dialer.policy.interval n))) ∨
      ((∀ k < rounds, GoesOn world dialer endpoint start (made + k)
          (stage world endpoint dialer.policy.interval k s)) ∧
        dialer.dialFrom world endpoint start rounds (tally made) s = none) := by
  induction rounds generalizing made s with
  | zero => exact Or.inr ⟨fun k hk => absurd hk (Nat.not_lt_zero k), rfl⟩
  | succ rounds ih =>
      rcases round_cases world dialer endpoint start rounds made s with
        ⟨last, hending, hdial⟩ | ⟨hgoes, hdial⟩
      · refine Or.inl ⟨0, last, Nat.succ_pos _, fun k hk => absurd hk (Nat.not_lt_zero k),
          hending, ?_⟩
        rw [hdial]
        rfl
      -- The stages of the rest are those of the whole, but for the first.
      have hstages : ∀ {n}, (∀ k < n, GoesOn world dialer endpoint start (made + 1 + k)
          (stage world endpoint dialer.policy.interval k
            (world.sleep dialer.policy.interval (world.connect endpoint s).2))) →
          ∀ k < n + 1, GoesOn world dialer endpoint start (made + k)
            (stage world endpoint dialer.policy.interval k s) := by
        intro n hrest k hk
        cases k with
        | zero => exact hgoes
        | succ k =>
            have hk' := hrest k (Nat.lt_of_succ_lt_succ hk)
            rw [Nat.add_right_comm] at hk'
            exact hk'
      rcases ih (made + 1) (world.sleep dialer.policy.interval (world.connect endpoint s).2) with
        ⟨n, last, hn, hrest, hending, hfrom⟩ | ⟨hrest, hfrom⟩
      · rw [Nat.add_right_comm] at hending
        refine Or.inl ⟨n + 1, last, Nat.succ_lt_succ hn, hstages hrest, hending, ?_⟩
        rw [hdial, hfrom, Option.map_some, after_after, laps_succ]
      · refine Or.inr ⟨hstages hrest, ?_⟩
        rw [hdial, hfrom, Option.map_none]

/-- A dial that has ended in some rounds does not need more. -/
theorem dialFrom_succ {start : Int} {rounds : Nat} {attempts : UInt32} {s : σ} {run : Run σ κ}
    (h : dialer.dialFrom world endpoint start rounds attempts s = some run) :
    dialer.dialFrom world endpoint start (rounds + 1) attempts s = some run := by
  induction rounds generalizing attempts s run with
  | zero => cases h
  | succ rounds ih =>
      rw [Dialer.dialFrom] at h ⊢
      by_cases hoff : (dialer.heedsCancel && world.cancelled s) = true
      · rw [if_pos hoff] at h ⊢
        exact h
      rw [if_neg hoff] at h ⊢
      rcases hconnect : world.connect endpoint s with ⟨fault | stream, s'⟩
      · rw [hconnect] at h
        simp only [] at h ⊢
        rcases hnext : dialer.policy.afterFailure endpoint (countUp attempts)
            (elapsed start (world.now s')) fault with error | pause
        · rw [hnext] at h
          exact h
        · rw [hnext] at h
          rcases Option.map_eq_some_iff.mp h with ⟨rest, hrest, rfl⟩
          simp only [ih hrest, Option.map_some]
      · rw [hconnect] at h
        exact h

/-- What a dial can come to. -/
theorem dialFor_cases (world : World σ κ) (dialer : Dialer) (endpoint : Endpoint) (rounds : Nat)
    (s : σ) :
    (∃ n last, n < rounds ∧
        (∀ k < n, GoesOn world dialer endpoint (world.now s) k
          (stage world endpoint dialer.policy.interval k s)) ∧
        Ending world dialer endpoint (world.now s) n
          (stage world endpoint dialer.policy.interval n s) last ∧
        dialer.dialFor world endpoint rounds s =
          some (last.after (laps dialer.policy.interval n))) ∨
      ((∀ k < rounds, GoesOn world dialer endpoint (world.now s) k
          (stage world endpoint dialer.policy.interval k s)) ∧
        dialer.dialFor world endpoint rounds s = none) := by
  have hcases := dialFrom_cases world dialer endpoint (world.now s) rounds 0 s
  simp only [Nat.zero_add] at hcases
  exact hcases

/-- The first round that ends a dial is its last, if there are rounds enough. -/
theorem dialFor_of_ending {rounds n : Nat} {s : σ} {last : Run σ κ} (hn : n < rounds)
    (hbefore : ∀ k < n, GoesOn world dialer endpoint (world.now s) k
      (stage world endpoint dialer.policy.interval k s))
    (h : Ending world dialer endpoint (world.now s) n
      (stage world endpoint dialer.policy.interval n s) last) :
    dialer.dialFor world endpoint rounds s =
      some (last.after (laps dialer.policy.interval n)) := by
  rcases dialFor_cases world dialer endpoint rounds s with
    ⟨m, last', _, hbefore', hending, hdial⟩ | ⟨hall, _⟩
  · rcases Nat.lt_trichotomy m n with hless | rfl | hless
    · exact absurd (hbefore m hless) hending.not_goesOn
    · rw [hdial, hending.unique h]
    · exact absurd (hbefore' n hless) h.not_goesOn
  · exact absurd (hall n hn) h.not_goesOn

end Rounds

end FramedIpc.Dial
