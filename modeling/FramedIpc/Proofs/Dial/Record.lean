import FramedIpc.Dial.Script
import FramedIpc.Proofs.Dial.Diary

/-!
# The Record of a Dial

What a dial reports of itself, a result and the row of its events, does not
say how each attempt ended. A recorded world does: it notes every attempt with
its outcome and every pause, as they are made. The record is no part of what
the dial can see, so a dial in a recorded world is the same dial
(`plain_dialFrom`), and whatever the record shows is so of the dial without
it.

The record of a dial that has ended is orderly. Attempts and pauses take
turns, each pause follows an attempt that failed because nobody listens yet,
and nothing follows an attempt that succeeded: no open stream is ever lost.
It is read off backwards, from the last round to the first, since a round that
goes by only puts an attempt and a pause in front.

## Main definitions

* `Deed`: What is noted of a dial.
* `World.recorded`: A world that notes what a dial does to it.
* `Orderly`: What the record of a dial is like.

## Theorems

* `plain_dialFrom`: Recording changes nothing.
* `Orderly.lap`: A round that goes by leaves a record orderly.
* `dialFor_orderly`: The record of every dial is orderly.
-/

namespace FramedIpc.Dial

variable {σ κ : Type}

/-- What is noted of a dial. -/
inductive Deed (κ : Type) where
  | attempt (outcome : Except Fault κ)
  | pause (span : Span)

/-- What a dial reports of it. -/
def Deed.event : Deed κ → Event
  | .attempt _ => .connect
  | .pause span => .sleep span

/-- Whether it was an attempt. -/
def Deed.isAttempt : Deed κ → Bool
  | .attempt _ => true
  | .pause _ => false

/-- Whether it was a pause. -/
def Deed.isPause : Deed κ → Bool
  | .attempt _ => false
  | .pause _ => true

/-- A world that notes what a dial does to it. -/
def World.recorded (world : World σ κ) : World (σ × List (Deed κ)) κ where
  connect endpoint s :=
    ((world.connect endpoint s.1).1,
      ((world.connect endpoint s.1).2, s.2 ++ [.attempt (world.connect endpoint s.1).1]))
  now s := world.now s.1
  sleep pause s := (world.sleep pause s.1, s.2 ++ [.pause pause])
  cancelled s := world.cancelled s.1

/-- A run without its record. -/
def Run.plain (run : Run (σ × List (Deed κ)) κ) : Run σ κ :=
  ⟨run.result, run.events, run.world.1⟩

/-- Whether a dial was called off. -/
def wasCancelled : Except Error κ → Bool
  | .error (.cancelled _ _) => true
  | _ => false

/-- The attempts that an error reports. -/
def Error.attempts? : Error → Option UInt32
  | .retriesExhausted _ attempts _ => some attempts
  | .deadlineElapsed _ _ attempts => some attempts
  | .cancelled _ attempts => some attempts
  | _ => none

/-- What the record of a dial is like that had made `made` attempts before. -/
structure Orderly (interval : Span) (made : Nat) (record : List (Deed κ))
    (result : Except Error κ) : Prop where
  /-- Attempts and pauses take turns, and an attempt is the first. -/
  turns : ∃ n, record.map Deed.event =
    laps interval n ++ if wasCancelled result then [] else [.connect]
  /-- After a dial that was called off there are as many pauses as attempts,
      and one less after any other. -/
  pauses : record.countP Deed.isPause + (if wasCancelled result then 0 else 1) =
    record.countP Deed.isAttempt
  /-- A pause is as long as the policy says, and follows an attempt that failed
      because nobody listens yet. -/
  pause_after : ∀ {before span after}, record = before ++ .pause span :: after →
    span = interval ∧ ∃ earlier fault, before = earlier ++ [.attempt (.error fault)] ∧
      (fault.kind = .notFound ∨ fault.kind = .connectionRefused)
  /-- An attempt that succeeds is the last, and its stream is the result. -/
  opened_last : ∀ {before stream after}, record = before ++ .attempt (.ok stream) :: after →
    after = [] ∧ result = .ok stream
  /-- And no stream comes from anywhere else. -/
  opened : ∀ {stream}, result = .ok stream → ∃ before, record = before ++ [.attempt (.ok stream)]
  /-- The attempts that are reported are those that were made, as far as the
      count can show them. -/
  counted : ∀ {error attempts}, result = .error error → error.attempts? = some attempts →
    attempts.toNat = min (made + record.countP Deed.isAttempt) 4294967295

theorem recorded_shows (world : World σ κ) : Shows world world.recorded Prod.fst where
  connect _ _ := rfl
  now _ := rfl
  sleep _ _ := rfl
  cancelled _ := rfl

/-- Recording changes nothing. -/
theorem plain_dialFrom (world : World σ κ) (dialer : Dialer) (endpoint : Endpoint) (start : Int)
    (rounds : Nat) (attempts : UInt32) (s : σ × List (Deed κ)) :
    (dialer.dialFrom world.recorded endpoint start rounds attempts s).map Run.plain =
      dialer.dialFrom world endpoint start rounds attempts s.1 :=
  dialFrom_of_shows (recorded_shows world) dialer endpoint start rounds attempts s

theorem recorded_connect {world : World σ κ} {endpoint : Endpoint} {s s' : σ × List (Deed κ)}
    {outcome : Except Fault κ} (h : world.recorded.connect endpoint s = (outcome, s')) :
    s'.2 = s.2 ++ [.attempt outcome] := by
  simp only [World.recorded, Prod.mk.injEq] at h
  rw [← h.2, ← h.1]

section Orderly

variable {interval : Span} {made : Nat}

theorem Orderly.calledOff (endpoint : Endpoint) :
    Orderly interval made [] (.error (.cancelled endpoint (tally made)) : Except Error κ) where
  turns := ⟨0, rfl⟩
  pauses := rfl
  pause_after := by
    intro before span after h
    cases List.append_eq_nil_iff.mp h.symm |>.2
  opened_last := by
    intro before stream after h
    cases List.append_eq_nil_iff.mp h.symm |>.2
  opened := fun h => by cases h
  counted := by
    rintro _ _ ⟨⟩ ⟨⟩
    exact toNat_tally made

/-- A last round with an attempt in it. -/
theorem Orderly.last {outcome : Except Fault κ} {result : Except Error κ}
    (hok : ∀ stream, outcome = .ok stream ↔ result = .ok stream)
    (hresult : wasCancelled result = false)
    (hcount : ∀ error attempts, result = .error error → error.attempts? = some attempts →
      attempts = tally (made + 1)) :
    Orderly interval made [.attempt outcome] result where
  turns := ⟨0, by rw [hresult]; rfl⟩
  pauses := by rw [hresult]; rfl
  pause_after := by
    intro before span after h
    rcases before with _ | ⟨deed, before⟩
    · cases h
    · cases before with
      | nil => cases h
      | cons deed' before => cases h
  opened_last := by
    intro before stream after h
    rcases before with _ | ⟨deed, before⟩
    · cases h
      exact ⟨rfl, (hok stream).mp rfl⟩
    · cases before with
      | nil => cases h
      | cons deed' before => cases h
  opened := fun {stream} h => ⟨[], by rw [(hok stream).mpr h]; rfl⟩
  counted := by
    intro error attempts herror hattempts
    rw [hcount error attempts herror hattempts, toNat_tally]
    rfl

/-- A round that goes by puts an attempt and a pause in front of the record. -/
theorem Orderly.lap {fault : Fault} {record : List (Deed κ)} {result : Except Error κ}
    (h : Orderly interval (made + 1) record result) (hretry : isRetryable fault = true) :
    Orderly interval made (.attempt (.error fault) :: .pause interval :: record) result where
  turns := by
    rcases h.turns with ⟨n, hn⟩
    refine ⟨n + 1, ?_⟩
    rw [List.map_cons, List.map_cons, hn, laps_succ]
    rfl
  pauses := by
    have hpauses := h.pauses
    simp only [List.countP_cons, Deed.isAttempt, Deed.isPause, if_true, Bool.false_eq_true,
      if_false]
    omega
  pause_after := by
    intro before span after heq
    rcases before with _ | ⟨deed, _ | ⟨deed', before⟩⟩
    · cases heq
    · cases heq
      exact ⟨rfl, [], fault, rfl, (isRetryable_iff fault).mp hretry⟩
    · simp only [List.cons_append, List.cons.injEq] at heq
      rcases h.pause_after heq.2.2 with ⟨hspan, earlier, fault', rfl, hkind⟩
      exact ⟨hspan, deed :: deed' :: earlier, fault', rfl, hkind⟩
  opened_last := by
    intro before stream after heq
    rcases before with _ | ⟨deed, _ | ⟨deed', before⟩⟩
    · cases heq
    · cases heq
    · simp only [List.cons_append, List.cons.injEq] at heq
      exact h.opened_last heq.2.2
  opened := by
    intro stream hresult
    rcases h.opened hresult with ⟨before, rfl⟩
    exact ⟨_ :: _ :: before, rfl⟩
  counted := by
    intro error attempts herror hattempts
    have hcounted := h.counted herror hattempts
    simp only [List.countP_cons, Deed.isAttempt, if_true, Bool.false_eq_true, if_false]
    rw [hcounted]
    omega

end Orderly

theorem orderly_of_ending {world : World σ κ} {dialer : Dialer} {endpoint : Endpoint}
    {start : Int} {made : Nat} {s : σ × List (Deed κ)} {run : Run (σ × List (Deed κ)) κ}
    (h : Ending world.recorded dialer endpoint start made s run) :
    ∃ record, run.world.2 = s.2 ++ record ∧ run.events = record.map Deed.event ∧
      Orderly dialer.policy.interval made record run.result := by
  cases h with
  | cancelled _ => exact ⟨[], (List.append_nil _).symm, rfl, .calledOff endpoint⟩
  | opened _ hconnect =>
      refine ⟨_, recorded_connect hconnect, rfl, .last (fun stream => ?_) rfl ?_⟩
      · rw [Except.ok.injEq, Except.ok.injEq]
      · rintro _ _ ⟨⟩
  | refused _ hconnect _ =>
      refine ⟨_, recorded_connect hconnect, rfl, .last (fun stream => ?_) rfl ?_⟩
      · simp only [reduceCtorEq]
      · rintro _ _ ⟨⟩ ⟨⟩
  | exhausted _ hconnect _ _ _ =>
      refine ⟨_, recorded_connect hconnect, rfl, .last (fun stream => ?_) rfl ?_⟩
      · simp only [reduceCtorEq]
      · rintro _ _ ⟨⟩ ⟨⟩
        rfl
  | late _ hconnect _ _ _ _ =>
      refine ⟨_, recorded_connect hconnect, rfl, .last (fun stream => ?_) rfl ?_⟩
      · simp only [reduceCtorEq]
      · rintro _ _ ⟨⟩ ⟨⟩
        rfl

theorem orderly_of_dialFrom (world : World σ κ) (dialer : Dialer) (endpoint : Endpoint)
    (start : Int) (rounds made : Nat) (s : σ × List (Deed κ)) {run : Run (σ × List (Deed κ)) κ}
    (h : dialer.dialFrom world.recorded endpoint start rounds (tally made) s = some run) :
    ∃ record, run.world.2 = s.2 ++ record ∧ run.events = record.map Deed.event ∧
      Orderly dialer.policy.interval made record run.result := by
  induction rounds generalizing made s run with
  | zero => cases h
  | succ rounds ih =>
      rcases round_cases world.recorded dialer endpoint start rounds made s with
        ⟨last, hending, hdial⟩ | ⟨hgoes, hdial⟩
      · rw [hdial] at h
        cases h
        exact orderly_of_ending hending
      · rw [hdial] at h
        rcases Option.map_eq_some_iff.mp h with ⟨rest, hrest, rfl⟩
        rcases ih (made + 1) _ hrest with ⟨record, hworld, hevents, horderly⟩
        rcases hgoes.failed with ⟨fault, hfailed, hretry⟩
        have hconnect := recorded_connect (Prod.ext hfailed rfl :
          world.recorded.connect endpoint s = (.error fault, (world.recorded.connect endpoint s).2))
        refine ⟨.attempt (.error fault) :: .pause dialer.policy.interval :: record, ?_, ?_,
          horderly.lap hretry⟩
        · rw [Run.after, hworld]
          simp only [World.recorded] at hconnect ⊢
          rw [hconnect, List.append_assoc, List.append_assoc]
          rfl
        · rw [Run.after, hevents]
          rfl

/-- Every dial that ends has an orderly record, whatever the policy, the
    connector, the clock and the flag do. -/
theorem dialFor_orderly (world : World σ κ) (dialer : Dialer) (endpoint : Endpoint)
    (rounds : Nat) (s : σ) {run : Run σ κ}
    (h : dialer.dialFor world endpoint rounds s = some run) :
    ∃ record,
      dialer.dialFor world.recorded endpoint rounds (s, []) =
        some ⟨run.result, run.events, (run.world, record)⟩ ∧
      run.events = record.map Deed.event ∧
      Orderly dialer.policy.interval 0 record run.result := by
  have hplain := plain_dialFrom world dialer endpoint (world.now s) rounds (tally 0) (s, [])
  rcases Option.map_eq_some_iff.mp (hplain.trans h) with
    ⟨⟨result, events, s', record⟩, hdial, rfl⟩
  rcases orderly_of_dialFrom world dialer endpoint _ rounds 0 _ hdial with
    ⟨_, rfl, hevents, horderly⟩
  exact ⟨_, hdial, hevents, horderly⟩

/-- A server that comes up during the third attempt, on a clock that is set
    back during the second. -/
def comingUp : Script :=
  ⟨0, [⟨.zero, .zero, false, .error (.bare .notFound)⟩,
    ⟨.zero, .ofSeconds 5, false, .error (.bare .connectionRefused)⟩,
    ⟨.ofSeconds 1, .zero, false, .ok 7⟩], false, none⟩

/-- Three attempts and two pauses, and the stream of the third is the result. -/
theorem dialFor_orderly_comingUp :
    ∃ run record,
      Dialer.dialFor Script.world ⟨.standard, true⟩ ⟨[47, 97], .unixSocket⟩ 3 comingUp = some run ∧
        run.result = .ok 7 ∧
        run.events = [.connect, .sleep (.ofMillis 100), .connect, .sleep (.ofMillis 100),
          .connect] ∧
        run.events = record.map Deed.event ∧ Orderly (.ofMillis 100) 0 record run.result := by
  have hdial : Dialer.dialFor Script.world ⟨.standard, true⟩ ⟨[47, 97], .unixSocket⟩ 3 comingUp =
      some ⟨.ok 7, [.connect, .sleep (.ofMillis 100), .connect, .sleep (.ofMillis 100), .connect],
        ⟨-3800000000, [], false, none⟩⟩ := by
    rfl
  rcases dialFor_orderly Script.world ⟨.standard, true⟩ ⟨[47, 97], .unixSocket⟩ 3 comingUp hdial with
    ⟨record, _, hevents, horderly⟩
  exact ⟨_, record, hdial, rfl, rfl, hevents, horderly⟩

end FramedIpc.Dial
