import FramedIpc.Proofs.Dial.Course

/-!
# Dials That Go Alike

A dial knows of the world only what it looks at: whether it is called off, how
an attempt ended, and how long it has taken so far. So if two worlds show the
same of these at every round that a dial comes to, it goes the same way in
both, with the same result and the same events, and it ends in the one if it
ends in the other (`report_of_alike`). The worlds may differ in all else. In
particular the clocks may read quite different times, since only the time since
the start is looked at.

Two such worlds need not be alike at once and for ever. It is enough that they
are at each round that is come to if they have been at those before, which is
what an induction on the rounds provides. What is known of a round that is come
to is that its events are the next ones that the dial reports
(`attempt_front`), and the world in which it begins is the one that the events
so far have made (`World.played`).

## Main definitions

* `World.played`: What some events make of a world.
* `Run.report`: What a dial reports, without the world it leaves.
* `Alike`: Whether two worlds show a dial the same.

## Theorems

* `played_laps`: Rounds that go by leave the world at the next stage.
* `world_of_dialFor`: A dial does to the world what it reports, and no more.
* `attempt_front`: A round that is come to makes the next attempt.
* `GoesOn.alike`, `Ending.alike`: A round goes the same way in worlds alike.
* `report_of_alike`: So does a dial.
-/

namespace FramedIpc.Dial

variable {σ σ' κ : Type}

/-- What some events make of a world, one after another. -/
def World.played (world : World σ κ) (endpoint : Endpoint) : List Event → σ → σ
  | [], s => s
  | .connect :: events, s => world.played endpoint events (world.connect endpoint s).2
  | .sleep pause :: events, s => world.played endpoint events (world.sleep pause s)

/-- What a dial reports: its result and its events. -/
def Run.report (run : Run σ κ) : Except Error κ × List Event :=
  (run.result, run.events)

section Played

variable {world : World σ κ} {dialer : Dialer} {endpoint : Endpoint} {start : Int} {made : Nat}

theorem played_append (world : World σ κ) (endpoint : Endpoint) (first second : List Event)
    (s : σ) :
    world.played endpoint (first ++ second) s =
      world.played endpoint second (world.played endpoint first s) := by
  induction first generalizing s with
  | nil => rfl
  | cons event first ih =>
      cases event with
      | connect => exact ih (world.connect endpoint s).2
      | sleep pause => exact ih (world.sleep pause s)

/-- Rounds that go by leave the world at the next stage. -/
theorem played_laps (world : World σ κ) (endpoint : Endpoint) (pause : Span) (n : Nat) (s : σ) :
    world.played endpoint (laps pause n) s = stage world endpoint pause n s := by
  induction n generalizing s with
  | zero => rfl
  | succ n ih =>
      rw [laps_succ]
      exact ih (world.sleep pause (world.connect endpoint s).2)

/-- And the attempt of a round leaves it where the attempt does. -/
theorem played_attempt (world : World σ κ) (endpoint : Endpoint) (pause : Span) (n : Nat) (s : σ) :
    world.played endpoint (laps pause n ++ [.connect]) s =
      (world.connect endpoint (stage world endpoint pause n s)).2 := by
  rw [played_append, played_laps]
  rfl

theorem Ending.world_eq {s : σ} {last : Run σ κ}
    (h : Ending world dialer endpoint start made s last) :
    last.world = world.played endpoint last.events s := by
  cases h with
  | cancelled _ => rfl
  | opened _ hconnect => exact (congrArg Prod.snd hconnect).symm
  | refused _ hconnect _ => exact (congrArg Prod.snd hconnect).symm
  | exhausted _ hconnect _ _ _ => exact (congrArg Prod.snd hconnect).symm
  | late _ hconnect _ _ _ _ => exact (congrArg Prod.snd hconnect).symm

variable {rounds : Nat} {s : σ} {run : Run σ κ}

/-- A dial does to the world what it reports, and no more. -/
theorem world_of_dialFor (h : dialer.dialFor world endpoint rounds s = some run) :
    run.world = world.played endpoint run.events s := by
  rcases dialFor_cases world dialer endpoint rounds s with
    ⟨n, last, _, _, hending, hdial⟩ | ⟨_, hdial⟩
  · rw [hdial] at h
    cases h
    rw [Run.after, played_append, played_laps]
    exact hending.world_eq
  · rw [hdial] at h
    cases h

/-- Rounds that go by are the first that a dial reports. -/
theorem laps_front_of_dialFor (h : dialer.dialFor world endpoint rounds s = some run) {n : Nat}
    (hbefore : ∀ k < n, GoesOn world dialer endpoint (world.now s) k
      (stage world endpoint dialer.policy.interval k s)) :
    laps dialer.policy.interval n <+: run.events := by
  rcases dialFor_cases world dialer endpoint rounds s with
    ⟨m, last, _, _, hending, hdial⟩ | ⟨_, hdial⟩
  · rw [hdial] at h
    cases h
    have hfar : n ≤ m := Nat.le_of_not_lt fun hlt => hending.not_goesOn (hbefore m hlt)
    exact (laps_front hfar).trans (List.prefix_append _ _)
  · rw [hdial] at h
    cases h

/-- A round that is come to makes the next attempt, unless the dial is called
    off there. -/
theorem attempt_front (h : dialer.dialFor world endpoint rounds s = some run) {n : Nat}
    (hbefore : ∀ k < n, GoesOn world dialer endpoint (world.now s) k
      (stage world endpoint dialer.policy.interval k s))
    (hgo : ¬ CalledOff world dialer (stage world endpoint dialer.policy.interval n s)) :
    laps dialer.policy.interval n ++ [.connect] <+: run.events := by
  rcases dialFor_cases world dialer endpoint rounds s with
    ⟨m, last, _, _, hending, hdial⟩ | ⟨_, hdial⟩
  · rw [hdial] at h
    cases h
    have hfar : n ≤ m := Nat.le_of_not_lt fun hlt => hending.not_goesOn (hbefore m hlt)
    rcases Nat.lt_or_eq_of_le hfar with hlt | rfl
    · exact (laps_append_front hlt (Or.inr rfl)).trans (List.prefix_append _ _)
    · -- The round is the last, and its only event is the attempt.
      rcases hending.events_eq with ⟨hoff, _⟩ | ⟨_, hevents⟩
      · exact absurd hoff hgo
      · exact ⟨[], by rw [Run.after, hevents, List.append_nil]⟩
  · rw [hdial] at h
    cases h

end Played

/-- Whether two worlds show a dial the same in a round that begins at `s` in
    the one and at `s'` in the other: both call it off, or neither does and the
    attempt ends in the same way, after the same time since the start. -/
structure Alike (one : World σ κ) (other : World σ' κ) (dialer : Dialer) (endpoint : Endpoint)
    (start start' : Int) (s : σ) (s' : σ') : Prop where
  flag : CalledOff one dialer s ↔ CalledOff other dialer s'
  outcome : ¬ CalledOff one dialer s →
    (one.connect endpoint s).1 = (other.connect endpoint s').1
  spent : ¬ CalledOff one dialer s →
    one.now (one.connect endpoint s).2 - start = other.now (other.connect endpoint s').2 - start'

section Alike

variable {one : World σ κ} {other : World σ' κ} {dialer : Dialer} {endpoint : Endpoint}
  {start start' : Int} {made : Nat} {s : σ} {s' : σ'}

theorem Alike.elapsed_eq (h : Alike one other dialer endpoint start start' s s')
    (hgo : ¬ CalledOff one dialer s) :
    elapsed start (one.now (one.connect endpoint s).2) =
      elapsed start' (other.now (other.connect endpoint s').2) := by
  rw [elapsed, elapsed, h.spent hgo]

/-- A round that goes by in one world goes by in a world that shows the same. -/
theorem GoesOn.alike (hgoes : GoesOn one dialer endpoint start made s)
    (h : Alike one other dialer endpoint start start' s s') :
    GoesOn other dialer endpoint start' made s' where
  heeded := mt h.flag.mpr hgoes.heeded
  failed := by
    rw [← h.outcome hgoes.heeded]
    exact hgoes.failed
  budget := hgoes.budget
  time := by
    rw [← h.elapsed_eq hgoes.heeded]
    exact hgoes.time

/-- A round that ends a dial in one world ends it in the same way in a world
    that shows the same. -/
theorem Ending.alike {last : Run σ κ} (hending : Ending one dialer endpoint start made s last)
    (h : Alike one other dialer endpoint start start' s s') :
    ∃ last', Ending other dialer endpoint start' made s' last' ∧ last'.report = last.report := by
  -- What the attempt of the one world ended in is what that of the other does.
  have hattempt : ∀ {outcome : Except Fault κ} {t : σ}, ¬ CalledOff one dialer s →
      one.connect endpoint s = (outcome, t) →
        other.connect endpoint s' = (outcome, (other.connect endpoint s').2) ∧
          elapsed start (one.now t) =
            elapsed start' (other.now (other.connect endpoint s').2) := by
    intro outcome t hgo hconnect
    have houtcome := h.outcome hgo
    have helapsed := h.elapsed_eq hgo
    rw [hconnect] at houtcome helapsed
    exact ⟨Prod.ext houtcome.symm rfl, helapsed⟩
  cases hending with
  | cancelled hoff => exact ⟨_, .cancelled (h.flag.mp hoff), rfl⟩
  | opened hgo hconnect =>
      exact ⟨_, .opened (mt h.flag.mpr hgo) (hattempt hgo hconnect).1, rfl⟩
  | refused hgo hconnect hretry =>
      exact ⟨_, .refused (mt h.flag.mpr hgo) (hattempt hgo hconnect).1 hretry, rfl⟩
  | exhausted hgo hconnect hretry hlimit hle =>
      exact ⟨_, .exhausted (mt h.flag.mpr hgo) (hattempt hgo hconnect).1 hretry hlimit hle, rfl⟩
  | late hgo hconnect hretry hbudget hdeadline hlate =>
      rcases hattempt hgo hconnect with ⟨hconnect', helapsed⟩
      rw [helapsed] at hlate
      refine ⟨_, .late (mt h.flag.mpr hgo) hconnect' hretry hbudget hdeadline hlate, ?_⟩
      rw [Run.report, Run.report, helapsed]

/-- A dial goes the same way in two worlds that show it the same at every round
    that it comes to. -/
theorem report_of_alike {rounds : Nat}
    (h : ∀ n < rounds,
      (∀ k < n, GoesOn one dialer endpoint (one.now s) k
        (stage one endpoint dialer.policy.interval k s)) →
      Alike one other dialer endpoint (one.now s) (other.now s')
        (stage one endpoint dialer.policy.interval n s)
        (stage other endpoint dialer.policy.interval n s')) :
    (dialer.dialFor one endpoint rounds s).map Run.report =
      (dialer.dialFor other endpoint rounds s').map Run.report := by
  -- Rounds that go by in the one world go by in the other.
  have hfollow : ∀ {n}, n ≤ rounds →
      (∀ k < n, GoesOn one dialer endpoint (one.now s) k
        (stage one endpoint dialer.policy.interval k s)) →
      ∀ k < n, GoesOn other dialer endpoint (other.now s') k
        (stage other endpoint dialer.policy.interval k s') := by
    intro n hn hbefore k hk
    exact (hbefore k hk).alike (h k (Nat.lt_of_lt_of_le hk hn)
      fun j hj => hbefore j (Nat.lt_trans hj hk))
  rcases dialFor_cases one dialer endpoint rounds s with
    ⟨n, last, hn, hbefore, hending, hdial⟩ | ⟨hall, hdial⟩
  · rcases hending.alike (h n hn hbefore) with ⟨last', hending', hreport⟩
    rw [hdial, dialFor_of_ending hn (hfollow (Nat.le_of_lt hn) hbefore) hending']
    simp only [Run.report, Prod.mk.injEq] at hreport
    simp only [Option.map_some, Run.report, Run.after, hreport.1, hreport.2]
  · rcases dialFor_cases other dialer endpoint rounds s' with
      ⟨n, last, hn, _, hending, _⟩ | ⟨_, hdial'⟩
    · exact absurd (hfollow (Nat.le_refl rounds) hall n hn) hending.not_goesOn
    · rw [hdial, hdial']
      rfl

end Alike

end FramedIpc.Dial
