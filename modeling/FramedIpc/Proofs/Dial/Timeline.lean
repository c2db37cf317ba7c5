import FramedIpc.Dial.Timeline
import FramedIpc.Proofs.Dial.Record

/-!
# Two Dials along a Timeline

A dial that blocks and one that waits have loops of their own, and they look
at the call that ends them at different places: the one before an attempt, the
other during a pause as well. Along one timeline they agree all the same. They
make the same attempts at the same moments and come to the same result, with
the same count of attempts and the same time in it. Only the moment at which a
dial is over that was called off is not the same: the one that waits is over
at the call, the other at the end of the pause in which the call came.

The count is where this could go wrong. A pause that is broken off comes after
its attempt was counted, and a pause that is sat out is followed by a round
that ends before it counts one more; so both report the attempts before the
pause.

A timer counts in ticks and cannot count for ever. The dials agree as long as
their pauses are whole ticks and the timer can count to the end of each
(`InReach`, `wakeTime_of_ticks`); then neither is ever behind. It is only the
pauses in a diary that this asks of, and not those that a policy would have
made.

## Main definitions

* `Wait`: How a waiting dial went.
* `Policy.dialNoting`: A waiting dial that notes its attempts.
* `attemptsIn`: The readings at the attempts in a diary.
* `Agree`: What two dials along a timeline have in common.
* `InReach`: Whether the timer can count to the end of a pause.
* `PausesInReach`: Whether it can count to the end of all that a dial makes.

## Theorems

* `plain_dialNotingFrom`: Noting attempts changes nothing.
* `Agree.of_attempt`: Dials that end with an attempt agree.
* `Agree.of_call`: And so do dials that a call ends in a pause.
* `agree_of_standing`: Dials that stand at one moment agree in the end.
* `dialWaiting_agrees`: Two dials along a timeline agree.
-/

namespace FramedIpc

namespace Dial

/-- How a waiting dial went. -/
structure Wait (κ : Type) where
  /-- The open stream, or why there is none. -/
  result : Except Error κ
  /-- When the dial was over. -/
  moment : Nat
  /-- The moments of its attempts. -/
  attempts : List Nat

end Dial

namespace Policy

open Dial

variable {κ : Type}

/-- A waiting dial that notes its attempts, and has noted some before. -/
def dialNotingFrom (timeline : Timeline κ) (policy : Policy) (endpoint : Endpoint) :
    Nat → UInt32 → Nat → List Nat → Option (Wait κ)
  | 0, _, _, _ => none
  | rounds + 1, attempts, moment, noted =>
    if timeline.cancelledBy moment then
      some ⟨.error (.cancelled endpoint attempts), moment, noted⟩
    else
      match timeline.attempt moment with
      | .ok stream => some ⟨.ok stream, moment, noted ++ [moment]⟩
      | .error fault =>
        match policy.afterFailure endpoint (countUp attempts) (Span.ofNanos moment) fault with
        | .error error => some ⟨.error error, moment, noted ++ [moment]⟩
        | .ok pause =>
          let wake := wakeTime moment pause
          match timeline.cancelAt with
          | none =>
            dialNotingFrom timeline policy endpoint rounds (countUp attempts) wake
              (noted ++ [moment])
          | some call =>
            if call ≤ wake then
              some ⟨.error (.cancelled endpoint (countUp attempts)), call, noted ++ [moment]⟩
            else
              dialNotingFrom timeline policy endpoint rounds (countUp attempts) wake
                (noted ++ [moment])

/-- A waiting dial that notes its attempts. -/
def dialNoting (timeline : Timeline κ) (policy : Policy) (endpoint : Endpoint) (rounds : Nat) :
    Option (Wait κ) :=
  dialNotingFrom timeline policy endpoint rounds 0 0 []

end Policy

namespace Dial

open Policy

variable {κ : Type}

/-- Noting attempts changes nothing. -/
theorem plain_dialNotingFrom (timeline : Timeline κ) (policy : Policy) (endpoint : Endpoint)
    (rounds : Nat) (attempts : UInt32) (moment : Nat) (noted : List Nat) :
    (dialNotingFrom timeline policy endpoint rounds attempts moment noted).map
        (fun wait => (wait.result, wait.moment)) =
      dialWaitingFrom timeline policy endpoint rounds attempts moment := by
  induction rounds generalizing attempts moment noted with
  | zero => rfl
  | succ rounds ih =>
      rw [dialNotingFrom, dialWaitingFrom]
      by_cases hoff : timeline.cancelledBy moment = true
      · rw [if_pos hoff, if_pos hoff]
        rfl
      rw [if_neg hoff, if_neg hoff]
      rcases timeline.attempt moment with fault | stream
      · simp only []
        rcases policy.afterFailure endpoint (countUp attempts) (Span.ofNanos moment) fault with
          error | pause
        · rfl
        · cases timeline.cancelAt with
          | none => exact ih _ _ _
          | some call =>
              by_cases hcall : call ≤ wakeTime moment pause
              · simp only [hcall, if_true, Option.map_some]
              · simp only [hcall, if_false]
                exact ih _ _ _
      · rfl

/-- The readings at the attempts in a diary. -/
def attemptsIn (diary : List Entry) : List Int :=
  (diary.filter fun entry => entry.event = .connect).map Entry.reading

/-- What a dial that blocks and one that waits have in common along a timeline.
    `diary` is what the one has noted. -/
structure Agree (timeline : Timeline κ) (policy : Policy) (run : Run Nat κ)
    (diary : List Entry) (wait : Wait κ) : Prop where
  result : wait.result = run.result
  /-- The same attempts at the same moments. -/
  attempts : attemptsIn diary = wait.attempts.map Nat.cast
  /-- Dials that are not called off are over at the same moment. -/
  together : wasCancelled run.result = false → wait.moment = run.world
  /-- A waiting dial that is called off is over at the call. One that blocks is
      over at once if the call came before, and else at the end of the pause in
      which it came. -/
  called : wasCancelled run.result = true → timeline.cancelAt = some wait.moment ∧
    (wait.moment = 0 ∧ run.world = 0 ∧ diary = [] ∨
      ∃ before : List Entry, ∃ begun : Nat,
        diary = before ++ [⟨begun, .sleep policy.interval⟩] ∧
          begun < wait.moment ∧ wait.moment ≤ begun + policy.interval.toNanos ∧
          run.world = begun + policy.interval.toNanos)

theorem attemptsIn_connect (diary : List Entry) (reading : Int) :
    attemptsIn (diary ++ [⟨reading, .connect⟩]) = attemptsIn diary ++ [reading] := by
  simp [attemptsIn]

theorem attemptsIn_sleep (diary : List Entry) (reading : Int) (pause : Span) :
    attemptsIn (diary ++ [⟨reading, .sleep pause⟩]) = attemptsIn diary := by
  simp [attemptsIn]

/-- Whether the timer of a dial that waits can count to the end of a pause. An
    attempt takes no time. -/
def InReach : Entry → Prop
  | ⟨_, .connect⟩ => True
  | ⟨begun, .sleep pause⟩ => pause.toNanos ≤ longestWait ∧
      begun + pause.toNanos ≤ (9223372036854775807 * nanosPerSecond : Nat)

instance : DecidablePred InReach
  | ⟨_, .connect⟩ => inferInstanceAs (Decidable True)
  | ⟨begun, .sleep pause⟩ => inferInstanceAs (Decidable (pause.toNanos ≤ longestWait ∧
      begun + pause.toNanos ≤ (9223372036854775807 * nanosPerSecond : Nat)))

/-- A timer that counts in ticks is exact on whole ticks, as far as it can
    count. -/
theorem wakeTime_of_ticks {moment : Nat} {pause : Span} (hmoment : tick ∣ moment)
    (hpause : tick ∣ pause.toNanos) (hreach : InReach ⟨moment, .sleep pause⟩) :
    wakeTime moment pause = moment + pause.toNanos := by
  have hticks : tick ∣ moment + pause.toNanos := Nat.dvd_add hmoment hpause
  rcases hreach with ⟨hlong, hfar⟩
  rw [wakeTime, if_neg (Nat.not_lt.mpr (by exact_mod_cast hfar))]
  rcases hticks with ⟨count, hcount⟩
  -- Rounding up leaves a whole count of ticks as it is.
  have hround : (moment + pause.toNanos + tick - 1) / tick = count := by
    rw [hcount]
    simp only [tick]
    omega
  rw [hround, Nat.mul_comm, ← hcount]
  omega

theorem elapsed_zero (moment : Nat) : elapsed 0 moment = Span.ofNanos moment := by
  rw [elapsed, Int.sub_zero, Int.toNat_natCast]

theorem eq_interval_of_afterFailure {policy : Policy} {endpoint : Endpoint} {attempts : UInt32}
    {time pause : Span} {fault : Fault}
    (h : policy.afterFailure endpoint attempts time fault = .ok pause) :
    pause = policy.interval := by
  unfold Policy.afterFailure at h
  split at h
  · cases h
  split at h
  · cases h
  split at h
  · cases h
  · exact (Except.ok.inj h).symm

/-- An attempt that ends a dial does not say that the dial was called off. -/
theorem wasCancelled_of_afterFailure {policy : Policy} {endpoint : Endpoint}
    {attempts : UInt32} {time : Span} {fault : Fault} {error : Error}
    (h : policy.afterFailure endpoint attempts time fault = .error error) :
    wasCancelled (.error error : Except Error κ) = false := by
  unfold Policy.afterFailure at h
  split at h
  · cases h
    rfl
  split at h
  · cases h
    rfl
  split at h
  · cases h
    rfl
  · cases h

section Standing

variable {timeline : Timeline κ} {policy : Policy} {endpoint : Endpoint} {attempts : UInt32}
  {moment : Nat} {diary : List Entry} {noted : List Nat}

theorem cancelledBy_iff :
    timeline.cancelledBy moment = true ↔ ∃ call, timeline.cancelAt = some call ∧ call ≤ moment := by
  unfold Timeline.cancelledBy
  cases timeline.cancelAt with
  | none => simp only [Bool.false_eq_true, reduceCtorEq, false_and, exists_false]
  | some call => simp only [decide_eq_true_eq, Option.some.injEq, exists_eq_left']

/-- A round of a dial that blocks, at a moment by which it is called off. -/
theorem dialFrom_of_called (policy : Policy) (endpoint : Endpoint) (rounds : Nat)
    (attempts : UInt32) (diary : List Entry) (hcalled : timeline.cancelledBy moment = true) :
    Dialer.dialFrom timeline.world.timed ⟨policy, true⟩ endpoint 0 (rounds + 1) attempts
        (moment, diary) =
      some ⟨.error (.cancelled endpoint attempts), [], (moment, diary)⟩ := by
  have hoff : (true && timeline.world.timed.cancelled (moment, diary)) = true := hcalled
  rw [Dialer.dialFrom, if_pos hoff]

/-- And at a moment by which it is not. -/
theorem dialFrom_of_fresh (endpoint : Endpoint) (rounds : Nat) (attempts : UInt32)
    (diary : List Entry) (hfresh : timeline.cancelledBy moment = false) :
    Dialer.dialFrom timeline.world.timed ⟨policy, true⟩ endpoint 0 (rounds + 1) attempts
        (moment, diary) =
      match timeline.attempt moment with
      | .ok stream => some ⟨.ok stream, [.connect], (moment, diary ++ [⟨moment, .connect⟩])⟩
      | .error fault =>
        match policy.afterFailure endpoint (countUp attempts) (Span.ofNanos moment) fault with
        | .error error =>
          some ⟨.error error, [.connect], (moment, diary ++ [⟨moment, .connect⟩])⟩
        | .ok pause =>
          (Dialer.dialFrom timeline.world.timed ⟨policy, true⟩ endpoint 0 rounds
            (countUp attempts) (moment + pause.toNanos,
              diary ++ [⟨moment, .connect⟩] ++ [⟨moment, .sleep pause⟩])).map
            (Run.after [.connect, .sleep pause]) := by
  have hgo : ¬ (true && timeline.world.timed.cancelled (moment, diary)) = true := by
    simp only [Bool.true_and, World.timed, Timeline.world, hfresh, Bool.false_eq_true,
      not_false_eq_true]
  rw [Dialer.dialFrom, if_neg hgo]
  simp only [World.timed, Timeline.world, elapsed_zero]
  rcases timeline.attempt moment with fault | stream
  · rfl
  · rfl

/-- A round goes by that begins at such a moment, if its attempt fails and a
    pause follows. -/
theorem goesOn_of_fresh {made : Nat} {fault : Fault} {pause : Span} (diary : List Entry)
    (hfresh : timeline.cancelledBy moment = false)
    (hfailed : timeline.attempt moment = .error fault)
    (hpause : policy.afterFailure endpoint (countUp (tally made)) (Span.ofNanos moment) fault =
      .ok pause) :
    GoesOn timeline.world.timed ⟨policy, true⟩ endpoint 0 made (moment, diary) := by
  rw [countUp_tally, ← elapsed_zero] at hpause
  refine goesOn_of_afterFailure (fun hoff => ?_) hfailed hpause
  have hcalled : timeline.cancelledBy moment = true := hoff.2
  rw [hfresh] at hcalled
  cases hcalled

section Pause

/-! A dial that waits, in the pause after an attempt. -/

variable {fault : Fault} {pause : Span} (hfresh : timeline.cancelledBy moment = false)
  (hfailed : timeline.attempt moment = .error fault)
  (hpause : policy.afterFailure endpoint (countUp attempts) (Span.ofNanos moment) fault =
    .ok pause)
include hfresh hfailed hpause

theorem dialNotingFrom_of_call (rounds : Nat) (noted : List Nat) {call : Nat}
    (hcall : timeline.cancelAt = some call) (hle : call ≤ wakeTime moment pause) :
    dialNotingFrom timeline policy endpoint (rounds + 1) attempts moment noted =
      some ⟨.error (.cancelled endpoint (countUp attempts)), call, noted ++ [moment]⟩ := by
  rw [dialNotingFrom, if_neg (by rw [hfresh]; exact Bool.false_ne_true)]
  simp only [hfailed, hpause, hcall, hle, if_true]

theorem dialNotingFrom_of_wake (rounds : Nat) (noted : List Nat)
    (hlater : timeline.cancelledBy (wakeTime moment pause) = false) :
    dialNotingFrom timeline policy endpoint (rounds + 1) attempts moment noted =
      dialNotingFrom timeline policy endpoint rounds (countUp attempts) (wakeTime moment pause)
        (noted ++ [moment]) := by
  rw [dialNotingFrom, if_neg (by rw [hfresh]; exact Bool.false_ne_true)]
  simp only [hfailed, hpause]
  cases hcall : timeline.cancelAt with
  | none => rfl
  | some call =>
      have hle : ¬ call ≤ wakeTime moment pause := by
        intro hle
        rw [cancelledBy_iff.mpr ⟨call, hcall, hle⟩] at hlater
        cases hlater
      simp only [hle, if_false]

end Pause

/-- Dials that end with the same attempt agree. -/
theorem Agree.of_attempt {result : Except Error κ} {events : List Event}
    (hresult : wasCancelled result = false) (hsame : attemptsIn diary = noted.map Nat.cast) :
    Agree timeline policy ⟨result, events, moment⟩ diary ⟨result, moment, noted⟩ where
  result := rfl
  attempts := hsame
  together _ := rfl
  called hcancelled := by
    simp only [hresult, Bool.false_eq_true] at hcancelled

/-- Dials that are called off in the same pause agree. -/
theorem Agree.of_call {call : Nat} {events : List Event}
    (hcall : timeline.cancelAt = some call) (hbegun : moment < call)
    (hend : call ≤ moment + policy.interval.toNanos)
    (hsame : attemptsIn diary = noted.map Nat.cast) :
    Agree timeline policy
      ⟨.error (.cancelled endpoint attempts), events, moment + policy.interval.toNanos⟩
      (diary ++ [⟨moment, .sleep policy.interval⟩])
      ⟨.error (.cancelled endpoint attempts), call, noted⟩ where
  result := rfl
  attempts := by rw [attemptsIn_sleep, hsame]
  together hcancelled := by cases hcancelled
  called _ := ⟨hcall, Or.inr ⟨diary, moment, rfl, hbegun, hend, rfl⟩⟩

/-- What a dial did before does not count. -/
theorem Agree.after {run : Run (Nat × List Entry) κ} {wait : Wait κ}
    (h : Agree timeline policy (run.seen Prod.fst) diary wait) (events : List Event) :
    Agree timeline policy ((run.after events).seen Prod.fst) diary wait :=
  ⟨h.result, h.attempts, h.together, h.called⟩

/-- Whether the timer can count to the end of every pause that a dial makes,
    which has made so many attempts and has so many rounds left. -/
def PausesInReach (timeline : Timeline κ) (policy : Policy) (endpoint : Endpoint)
    (rounds made : Nat) (s : Nat × List Entry) : Prop :=
  ∀ k < rounds,
    (∀ j ≤ k, GoesOn timeline.world.timed ⟨policy, true⟩ endpoint 0 (made + j)
      (stage timeline.world.timed endpoint policy.interval j s)) →
    InReach ⟨(stage timeline.world.timed endpoint policy.interval k s).1,
      .sleep policy.interval⟩

section PausesInReach

variable {rounds made : Nat} {s : Nat × List Entry}

theorem PausesInReach.first (h : PausesInReach timeline policy endpoint (rounds + 1) made s)
    (hgoes : GoesOn timeline.world.timed ⟨policy, true⟩ endpoint 0 made s) :
    InReach ⟨s.1, .sleep policy.interval⟩ := by
  refine h 0 (Nat.succ_pos rounds) fun j hj => ?_
  rw [Nat.le_zero.mp hj]
  exact hgoes

theorem PausesInReach.rest (h : PausesInReach timeline policy endpoint (rounds + 1) made s)
    (hgoes : GoesOn timeline.world.timed ⟨policy, true⟩ endpoint 0 made s) :
    PausesInReach timeline policy endpoint rounds (made + 1)
      (timeline.world.timed.sleep policy.interval
        (timeline.world.timed.connect endpoint s).2) := by
  intro k hk hrest
  -- The stages of the rest are those of the whole, but for the first.
  have hall : ∀ j ≤ k + 1, GoesOn timeline.world.timed ⟨policy, true⟩ endpoint 0 (made + j)
      (stage timeline.world.timed endpoint policy.interval j s) := by
    intro j hj
    cases j with
    | zero => exact hgoes
    | succ j =>
        rw [stage, Nat.add_comm j 1, ← Nat.add_assoc]
        exact hrest j (Nat.le_of_succ_le_succ hj)
  have hreach := h (k + 1) (Nat.succ_lt_succ hk) hall
  rw [stage] at hreach
  exact hreach

/-- The pauses that a dial makes are in its diary. -/
theorem pausesInReach_of_diary
    (h : ∀ entry ∈ Dialer.diary timeline.world ⟨policy, true⟩ endpoint rounds 0,
      InReach entry) :
    PausesInReach timeline policy endpoint rounds 0 (0, []) := by
  intro k hk hgoes
  simp only [Nat.zero_add] at hgoes
  have hmem : ⟨(stage timeline.world.timed endpoint policy.interval k (0, [])).1,
      .sleep policy.interval⟩ ∈
        Dialer.diary timeline.world ⟨policy, true⟩ endpoint rounds 0 :=
    mem_diary_of_goesOn hk hgoes
  exact h _ hmem

end PausesInReach

/-- Dials that stand at one moment, not yet called off, and have made the same
    attempts, agree in the end. One that blocks may need a round more, to see
    that it was called off. -/
theorem agree_of_standing (endpoint : Endpoint) {rounds made : Nat}
    (hticks : tick ∣ policy.interval.toNanos) (hmoment : tick ∣ moment)
    (hreach : PausesInReach timeline policy endpoint rounds made (moment, diary))
    (hfresh : timeline.cancelledBy moment = false)
    (hsame : attemptsIn diary = noted.map Nat.cast) :
    (∃ wait run,
      dialNotingFrom timeline policy endpoint rounds (tally made) moment noted = some wait ∧
      Dialer.dialFrom timeline.world.timed ⟨policy, true⟩ endpoint 0 (rounds + 1) (tally made)
        (moment, diary) = some run ∧
      Agree timeline policy (run.seen Prod.fst) run.world.2 wait) ∨
    (dialNotingFrom timeline policy endpoint rounds (tally made) moment noted = none ∧
      Dialer.dialFrom timeline.world.timed ⟨policy, true⟩ endpoint 0 rounds (tally made)
        (moment, diary) = none) := by
  -- On the rounds left. Between two of them both dials stand at one moment, by
  -- which they were not called off.
  induction rounds generalizing made moment diary noted with
  | zero => exact Or.inr ⟨rfl, rfl⟩
  | succ rounds ih =>
      have hsame' : attemptsIn (diary ++ [⟨moment, .connect⟩]) =
          (noted ++ [moment]).map Nat.cast := by
        rw [attemptsIn_connect, hsame, List.map_append, List.map_singleton]
      rw [dialFrom_of_fresh endpoint _ (tally made) diary hfresh,
        dialFrom_of_fresh endpoint _ (tally made) diary hfresh]
      rcases hattempt : timeline.attempt moment with fault | stream
      · simp only []
        rcases hnext : policy.afterFailure endpoint (countUp (tally made)) (Span.ofNanos moment)
            fault with error | pause
        · refine Or.inl ⟨_, _, ?_, rfl, .of_attempt (wasCancelled_of_afterFailure hnext) hsame'⟩
          rw [dialNotingFrom, if_neg (by rw [hfresh]; exact Bool.false_ne_true)]
          simp only [hattempt, hnext]
        have hpause := eq_interval_of_afterFailure hnext
        rw [hpause] at hnext ⊢
        simp only []
        have hgoes := goesOn_of_fresh diary hfresh hattempt hnext
        -- The timer ends the pause when it should.
        have hwake : wakeTime moment policy.interval = moment + policy.interval.toNanos :=
          wakeTime_of_ticks hmoment hticks (hreach.first hgoes)
        by_cases hlater : timeline.cancelledBy (moment + policy.interval.toNanos) = true
        · rcases cancelledBy_iff.mp hlater with ⟨call, hcall, hle⟩
          have hbegun : moment < call := by
            refine Nat.lt_of_not_le fun hle' => ?_
            rw [cancelledBy_iff.mpr ⟨call, hcall, hle'⟩] at hfresh
            cases hfresh
          have hbreaks : call ≤ wakeTime moment policy.interval := hwake ▸ hle
          rw [dialNotingFrom_of_call hfresh hattempt hnext rounds noted hcall hbreaks,
            dialFrom_of_called policy endpoint rounds _ _ hlater]
          exact Or.inl ⟨_, _, rfl, rfl, .of_call hcall hbegun hle hsame'⟩
        · -- Not called off in the pause, both go on to the next round.
          rw [Bool.not_eq_true] at hlater
          have hsame'' : attemptsIn (diary ++ [⟨moment, .connect⟩] ++
              [⟨moment, .sleep policy.interval⟩]) = (noted ++ [moment]).map Nat.cast := by
            rw [attemptsIn_sleep, hsame']
          rw [dialNotingFrom_of_wake hfresh hattempt hnext rounds noted (hwake ▸ hlater), hwake]
          have hreach' : PausesInReach timeline policy endpoint rounds (made + 1)
              (moment + policy.interval.toNanos, diary ++ [⟨moment, .connect⟩] ++
                [⟨moment, .sleep policy.interval⟩]) := hreach.rest hgoes
          rw [countUp_tally]
          rcases ih (Nat.dvd_add hmoment hticks) hreach' hlater hsame'' with
            ⟨wait, run, hwait, hrun, hagree⟩ | ⟨hwait, hrun⟩
          · exact Or.inl ⟨wait, _, hwait, by rw [hrun]; rfl, hagree.after _⟩
          · exact Or.inr ⟨hwait, by rw [hrun]; rfl⟩
      · refine Or.inl ⟨_, _, ?_, rfl, .of_attempt rfl hsame'⟩
        rw [dialNotingFrom, if_neg (by rw [hfresh]; exact Bool.false_ne_true)]
        simp only [hattempt]

end Standing

section Start

variable (timeline : Timeline κ) (policy : Policy) (endpoint : Endpoint) {rounds : Nat}

/-- Dials that were called off before they began agree. -/
theorem Agree.of_start {timeline : Timeline κ} {policy : Policy} {endpoint : Endpoint}
    {attempts : UInt32} (hcall : timeline.cancelAt = some 0) :
    Agree timeline policy ⟨.error (.cancelled endpoint attempts), [], 0⟩ []
      ⟨.error (.cancelled endpoint attempts), 0, []⟩ where
  result := rfl
  attempts := rfl
  together hcancelled := by cases hcancelled
  called _ := ⟨hcall, Or.inl ⟨rfl, rfl, rfl⟩⟩

/-- Dials that start at one moment agree in the end, or are both not over. -/
theorem agree_of_start (hticks : tick ∣ policy.interval.toNanos)
    (hreach : ∀ entry ∈ Dialer.diary timeline.world ⟨policy, true⟩ endpoint rounds 0,
      InReach entry) :
    (∃ wait run, policy.dialNoting timeline endpoint rounds = some wait ∧
      Dialer.dialFor timeline.world.timed ⟨policy, true⟩ endpoint (rounds + 1) (0, []) =
        some run ∧
      Agree timeline policy (run.seen Prod.fst) run.world.2 wait) ∨
    (policy.dialNoting timeline endpoint rounds = none ∧
      Dialer.dialFor timeline.world.timed ⟨policy, true⟩ endpoint rounds (0, []) = none) := by
  by_cases hcalled : timeline.cancelledBy 0 = true
  · cases rounds with
    | zero => exact Or.inr ⟨rfl, rfl⟩
    | succ rounds =>
        rcases cancelledBy_iff.mp hcalled with ⟨call, hcall, hle⟩
        rw [Nat.le_zero.mp hle] at hcall
        refine Or.inl ⟨_, _, ?_, dialFrom_of_called policy endpoint (rounds + 1) 0 [] hcalled,
          .of_start hcall⟩
        rw [Policy.dialNoting, dialNotingFrom, if_pos hcalled]
  · exact agree_of_standing endpoint hticks (Nat.dvd_zero tick) (pausesInReach_of_diary hreach)
      (Bool.not_eq_true _ ▸ hcalled) rfl

/-- Along a timeline a dial that waits and one that blocks agree, if its pauses
    are whole ticks and the timer can count to the end of each. Whenever the one that
    blocks is over, so is the one that waits; whenever the one that waits is
    over, the one that blocks needs one round more at most. They have made the
    same attempts at the same moments and come to the same result, and are over
    at the same moment unless they are called off. -/
theorem dialWaiting_agrees (hticks : tick ∣ policy.interval.toNanos)
    (hreach : ∀ entry ∈ Dialer.diary timeline.world ⟨policy, true⟩ endpoint rounds 0,
      InReach entry) :
    (∀ run, Dialer.dialFor timeline.world ⟨policy, true⟩ endpoint rounds 0 = some run →
      ∃ wait, policy.dialNoting timeline endpoint rounds = some wait ∧
        policy.dialWaiting timeline endpoint rounds = some (wait.result, wait.moment) ∧
        Agree timeline policy run
          (Dialer.diary timeline.world ⟨policy, true⟩ endpoint rounds 0) wait) ∧
    ∀ result moment, policy.dialWaiting timeline endpoint rounds = some (result, moment) →
      ∃ attempts run,
        policy.dialNoting timeline endpoint rounds = some ⟨result, moment, attempts⟩ ∧
        Dialer.dialFor timeline.world ⟨policy, true⟩ endpoint (rounds + 1) 0 = some run ∧
        Agree timeline policy run
          (Dialer.diary timeline.world ⟨policy, true⟩ endpoint (rounds + 1) 0)
          ⟨result, moment, attempts⟩ := by
  have hplain : (policy.dialNoting timeline endpoint rounds).map
      (fun wait => (wait.result, wait.moment)) = policy.dialWaiting timeline endpoint rounds :=
    plain_dialNotingFrom timeline policy endpoint rounds 0 0 []
  rcases agree_of_start timeline policy endpoint hticks hreach with
    ⟨wait, last, hwait, hlast, hagree⟩ | ⟨hwait, hlast⟩
  · rw [hwait, Option.map_some] at hplain
    constructor
    · intro run hrun
      rw [← seen_dialFor] at hrun
      rcases Option.map_eq_some_iff.mp hrun with ⟨noted, hnoted, rfl⟩
      -- The round more was not needed.
      have hsame : noted = last := Option.some.inj ((dialFrom_succ hnoted).symm.trans hlast)
      rw [diary_of_dialFor hnoted, hsame]
      exact ⟨wait, hwait, hplain.symm, hagree⟩
    · intro result moment hwaiting
      rw [hwaiting, Option.some.injEq, Prod.mk.injEq] at hplain
      rcases hplain with ⟨rfl, rfl⟩
      refine ⟨wait.attempts, last.seen Prod.fst, hwait, ?_, ?_⟩
      · rw [← seen_dialFor, hlast, Option.map_some]
      · rw [diary_of_dialFor hlast]
        exact hagree
  · rw [hwait, Option.map_none] at hplain
    constructor
    · intro run hrun
      rw [← seen_dialFor, hlast] at hrun
      cases hrun
    · intro result moment hwaiting
      rw [← hplain] at hwaiting
      cases hwaiting

end Start

/-- A server that comes up after a quarter of a second, and a dial that is
    called off a tenth of a second before. -/
def calledOffEarly : Timeline Nat where
  attempt moment := if moment < 250000000 then .error (.bare .notFound) else .ok 7
  cancelAt := some 150000000

/-- Both dials report the two attempts before the call. The one that waits is
    over at the call, the other at the end of the pause. -/
theorem dialWaiting_agrees_calledOffEarly :
    ∃ run wait,
      Dialer.dialFor calledOffEarly.world ⟨.standard, true⟩ ⟨[47, 97], .unixSocket⟩ 3 0 =
        some run ∧
      Policy.standard.dialWaiting calledOffEarly ⟨[47, 97], .unixSocket⟩ 3 =
        some (wait.result, wait.moment) ∧
      run.result = .error (.cancelled ⟨[47, 97], .unixSocket⟩ 2) ∧
      run.world = 200000000 ∧ wait.moment = 150000000 ∧
      Agree calledOffEarly .standard run
        (Dialer.diary calledOffEarly.world ⟨.standard, true⟩ ⟨[47, 97], .unixSocket⟩ 3 0)
        wait := by
  have hdial : Dialer.dialFor calledOffEarly.world ⟨.standard, true⟩ ⟨[47, 97], .unixSocket⟩ 3
      0 = some ⟨.error (.cancelled ⟨[47, 97], .unixSocket⟩ 2),
        [.connect, .sleep (.ofMillis 100), .connect, .sleep (.ofMillis 100)], 200000000⟩ := by
    rfl
  have hwaiting : Policy.standard.dialWaiting calledOffEarly ⟨[47, 97], .unixSocket⟩ 3 =
      some (.error (.cancelled ⟨[47, 97], .unixSocket⟩ 2), 150000000) := by
    cbv
  have hdiary : Dialer.diary calledOffEarly.world ⟨.standard, true⟩ ⟨[47, 97], .unixSocket⟩ 3
      0 = [⟨0, .connect⟩, ⟨0, .sleep (.ofMillis 100)⟩, ⟨100000000, .connect⟩,
        ⟨100000000, .sleep (.ofMillis 100)⟩] := by
    decide +kernel
  rcases (dialWaiting_agrees calledOffEarly .standard ⟨[47, 97], .unixSocket⟩ (by decide)
    (by rw [hdiary]; decide +kernel)).1 _ hdial with ⟨wait, _, hwait, hagree⟩
  have hmoment := hwait.symm.trans hwaiting
  rw [Option.some.injEq, Prod.mk.injEq] at hmoment
  exact ⟨_, wait, hdial, hwait, rfl, rfl, hmoment.2, hagree⟩

end Dial

end FramedIpc
