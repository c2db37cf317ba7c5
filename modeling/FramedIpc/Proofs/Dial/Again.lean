import FramedIpc.Dial.Script
import FramedIpc.Proofs.Dial.Alike

/-!
# Dialling Again

A dialer keeps nothing from one dial to the next. It counts its attempts from
the first one, and its deadline from the reading of the clock at which it
began; what a dial leaves behind is left in the world. So a dial that is made
after others goes as it would if it were the first, on a clock that had just
been started, in what those others have left of the world.

That the clock had not been started before is seen by nothing, since every
reading is taken off the first one. A script on another clock is the same script
with its readings shifted (`Script.shifted`), and so it stays, attempt by attempt
and pause by pause. The one exception is the latest time that a scripted clock
can show. A clock that has come to it stands still, and shifting its readings
would take it back, so the statement is about dials during which it is not
reached (`Dialer.runsOut`).

## Main definitions

* `Script.shifted`: A script on a clock that reads so much less.
* `Script.restarted`: A script on a clock that has just been started.
* `Script.runsOut`, `Script.runsOutAlong`, `Dialer.runsOut`: Whether the clock
  is taken to its latest time.
* `Script.leftBy`: What some dials have left of a script.

## Theorems

* `played_shifted`: A shifted script stays one.
* `exists_dialScript`: A dial in a scripted world ends.
* `alike_of_shifted`: A dial sees no difference in a shifted script.
* `dialScript_shifted`: So it goes the same way in it.
* `dials_start_afresh`: Every dial goes as if it were the first.
-/

namespace FramedIpc

open Dial

namespace Dial.Script

/-- A script on a clock that reads so much less. -/
def shifted (d : Int) (script : Script) : Script :=
  { script with time := script.time - d }

/-- A script on a clock that has just been started. -/
def restarted (script : Script) : Script :=
  { script with time := 0 }

/-- Whether an event takes the clock to its latest time. -/
def runsOut (script : Script) : Event → Bool
  | .connect =>
    match script.steps with
    | [] => false
    | step :: _ => latest ≤ script.time + step.advance.toNanos
  | .sleep pause => latest ≤ script.time + pause.toNanos

/-- Whether one of some events does. -/
def runsOutAlong (endpoint : Endpoint) : List Event → Script → Bool
  | [], _ => false
  | event :: events, script =>
    script.runsOut event || runsOutAlong endpoint events (world.played endpoint [event] script)

/-- What some dials have left of a script. -/
def leftBy (endpoint : Endpoint) (runs : List (Run Script Nat)) (script : Script) : Script :=
  world.played endpoint (runs.flatMap Run.events) script

end Dial.Script

/-- Whether a dial takes the clock to its latest time. -/
def Dialer.runsOut (dialer : Dialer) (endpoint : Endpoint) (script : Script) : Bool :=
  match dialer.dialScript endpoint script with
  | some run => script.runsOutAlong endpoint run.events
  | none => false

namespace Dial

variable {dialer : Dialer} {endpoint : Endpoint} {script : Script} {d : Int}

theorem shifted_time (script : Script) : script.shifted script.time = script.restarted := by
  rw [Script.shifted, Int.sub_self]
  rfl

theorem later_shifted {time : Int} {span : Span}
    (h : time + span.toNanos < Script.latest) (h' : time - d + span.toNanos < Script.latest) :
    Script.later (time - d) span = Script.later time span - d := by
  rw [Script.later, Script.later, Int.min_eq_left (Int.le_of_lt h),
    Int.min_eq_left (Int.le_of_lt h'), Int.sub_eq_add_neg, Int.sub_eq_add_neg,
    Int.add_right_comm]

/-- How an attempt ends does not depend on the clock. -/
theorem outcome_shifted (d : Int) (endpoint : Endpoint) (script : Script) :
    (Script.world.connect endpoint (script.shifted d)).1 =
      (Script.world.connect endpoint script).1 := by
  rcases script with ⟨time, steps, flag, left⟩
  cases steps with
  | nil => rfl
  | cons step steps => rfl

/-- One event leaves a shifted script shifted, unless the clock runs out. -/
theorem played_event_shifted (endpoint : Endpoint) {event : Event}
    (h : script.runsOut event = false) (h' : (script.shifted d).runsOut event = false) :
    Script.world.played endpoint [event] (script.shifted d) =
      (Script.world.played endpoint [event] script).shifted d := by
  rcases script with ⟨time, steps, flag, left⟩
  cases event with
  | connect =>
      cases steps with
      | nil => rfl
      | cons step steps =>
          have hbelow : ¬ Script.latest ≤ time + step.advance.toNanos := of_decide_eq_false h
          have hbelow' : ¬ Script.latest ≤ time - d + step.advance.toNanos :=
            of_decide_eq_false h'
          simp only [World.played, Script.world, Script.connect, Script.shifted,
            later_shifted (Int.not_le.mp hbelow) (Int.not_le.mp hbelow'), Script.mk.injEq,
            and_true]
          omega
  | sleep pause =>
      have hbelow : ¬ Script.latest ≤ time + pause.toNanos := of_decide_eq_false h
      have hbelow' : ¬ Script.latest ≤ time - d + pause.toNanos := of_decide_eq_false h'
      simp only [World.played, Script.world, Script.sleep, Script.shifted,
        later_shifted (Int.not_le.mp hbelow) (Int.not_le.mp hbelow')]

theorem runsOutAlong_append (endpoint : Endpoint) (first second : List Event) (script : Script) :
    script.runsOutAlong endpoint (first ++ second) =
      (script.runsOutAlong endpoint first ||
        (Script.world.played endpoint first script).runsOutAlong endpoint second) := by
  induction first generalizing script with
  | nil => rfl
  | cons event first ih =>
      rw [List.cons_append, Script.runsOutAlong, Script.runsOutAlong, ih, Bool.or_assoc,
        ← played_append]
      rfl

/-- A clock that does not run out does not do so before. -/
theorem runsOutAlong_of_front {first events : List Event} (hfront : first <+: events)
    (h : script.runsOutAlong endpoint events = false) :
    script.runsOutAlong endpoint first = false := by
  rcases hfront with ⟨second, rfl⟩
  rw [runsOutAlong_append, Bool.or_eq_false_iff] at h
  exact h.1

/-- A shifted script stays one, as long as the clock does not run out. -/
theorem played_shifted {events : List Event} (h : script.runsOutAlong endpoint events = false)
    (h' : (script.shifted d).runsOutAlong endpoint events = false) :
    Script.world.played endpoint events (script.shifted d) =
      (Script.world.played endpoint events script).shifted d := by
  induction events generalizing script with
  | nil => rfl
  | cons event events ih =>
      rw [Script.runsOutAlong, Bool.or_eq_false_iff] at h h'
      have hevent := played_event_shifted endpoint h.1 h'.1
      rw [hevent] at h'
      rw [← List.singleton_append, played_append, played_append, hevent]
      exact ih h.2 h'.2

/-- Every round takes a step of the script. -/
theorem steps_stage (endpoint : Endpoint) (pause : Span) (n : Nat) (script : Script) :
    (stage Script.world endpoint pause n script).steps = script.steps.drop n := by
  induction n with
  | zero => rfl
  | succ n ih =>
      have htail : ∀ s : Script, (Script.world.connect endpoint s).2.steps = s.steps.tail := by
        rintro ⟨time, steps, flag, left⟩
        cases steps with
        | nil => rfl
        | cons step steps => rfl
      rw [stage_succ, ← List.tail_drop, ← ih]
      exact htail _

/-- A dial in a scripted world ends, since attempts past the end of the script
    fail for good. -/
theorem exists_dialScript (dialer : Dialer) (endpoint : Endpoint) (script : Script) :
    ∃ run, dialer.dialScript endpoint script = some run := by
  rcases dialFor_cases Script.world dialer endpoint (script.steps.length + 1) script with
    ⟨_, last, _, _, _, hdial⟩ | ⟨hall, _⟩
  · exact ⟨_, hdial⟩
  · -- The round after the last step cannot have gone by.
    rcases (hall _ (Nat.lt_succ_self _)).failed with ⟨fault, hfailed, hretry⟩
    have hsteps := steps_stage endpoint dialer.policy.interval script.steps.length script
    rw [List.drop_length] at hsteps
    rw [show Script.world.connect = Script.connect from rfl, Script.connect, hsteps] at hfailed
    cases hfailed
    cases hretry

section Shifted

variable {run run' : Run Script Nat} (hdial : dialer.dialScript endpoint script = some run)
  (hdial' : dialer.dialScript endpoint (script.shifted d) = some run')
  (hclear : script.runsOutAlong endpoint run.events = false)
  (hclear' : (script.shifted d).runsOutAlong endpoint run'.events = false)
include hdial hdial' hclear hclear'

/-- A dial that has come to a round in both scripts sees no difference in it. -/
theorem alike_of_shifted {n : Nat}
    (hbefore : ∀ k < n, GoesOn Script.world dialer endpoint (Script.world.now script) k
      (stage Script.world endpoint dialer.policy.interval k script))
    (hbefore' : ∀ k < n, GoesOn Script.world dialer endpoint
      (Script.world.now (script.shifted d)) k
      (stage Script.world endpoint dialer.policy.interval k (script.shifted d))) :
    Alike Script.world Script.world dialer endpoint (Script.world.now script)
      (Script.world.now (script.shifted d))
      (stage Script.world endpoint dialer.policy.interval n script)
      (stage Script.world endpoint dialer.policy.interval n (script.shifted d)) := by
  have hstage := played_shifted
    (runsOutAlong_of_front (laps_front_of_dialFor hdial hbefore) hclear)
    (runsOutAlong_of_front (laps_front_of_dialFor hdial' hbefore') hclear')
  rw [played_laps, played_laps] at hstage
  have hflag : CalledOff Script.world dialer
      (stage Script.world endpoint dialer.policy.interval n script) ↔
      CalledOff Script.world dialer
        (stage Script.world endpoint dialer.policy.interval n (script.shifted d)) := by
    rw [hstage]
    exact Iff.rfl
  refine ⟨hflag, fun _ => ?_, fun hgo => ?_⟩
  · rw [hstage, outcome_shifted]
  · -- The attempt is made in both, so the clock does not run out during it.
    have hattempt := played_shifted
      (runsOutAlong_of_front (attempt_front hdial hbefore hgo) hclear)
      (runsOutAlong_of_front (attempt_front hdial' hbefore' (mt hflag.mpr hgo)) hclear')
    rw [played_attempt, played_attempt] at hattempt
    rw [hattempt]
    simp only [Script.world, Script.shifted]
    omega

/-- The rounds that go by in a script go by in the shifted one. -/
theorem goesOn_of_shifted {n : Nat}
    (hbefore : ∀ k < n, GoesOn Script.world dialer endpoint (Script.world.now script) k
      (stage Script.world endpoint dialer.policy.interval k script)) :
    ∀ k < n, GoesOn Script.world dialer endpoint (Script.world.now (script.shifted d)) k
      (stage Script.world endpoint dialer.policy.interval k (script.shifted d)) := by
  induction n with
  | zero => exact fun k hk => absurd hk (Nat.not_lt_zero k)
  | succ n ih =>
      have hearlier := fun k (hk : k < n) => hbefore k (Nat.lt_succ_of_lt hk)
      intro k hk
      rcases Nat.lt_succ_iff_lt_or_eq.mp hk with hlt | rfl
      · exact ih hearlier k hlt
      · exact (hbefore k hk).alike
          (alike_of_shifted hdial hdial' hclear hclear' hearlier (ih hearlier))

/-- A dial goes the same way in a shifted script, and leaves it shifted. -/
theorem dialScript_shifted : run'.report = run.report ∧ run'.world = run.world.shifted d := by
  have hreport : (dialer.dialScript endpoint script).map Run.report =
      (dialer.dialScript endpoint (script.shifted d)).map Run.report :=
    report_of_alike fun n _ hbefore => alike_of_shifted hdial hdial' hclear hclear' hbefore
      (goesOn_of_shifted hdial hdial' hclear hclear' hbefore)
  rw [hdial, hdial', Option.map_some, Option.map_some, Option.some.injEq] at hreport
  refine ⟨hreport.symm, ?_⟩
  have hevents : run.events = run'.events := congrArg Prod.snd hreport
  rw [← hevents] at hclear'
  rw [world_of_dialFor hdial', world_of_dialFor hdial, ← hevents]
  exact played_shifted hclear hclear'

end Shifted

/-- Dials that are made one after another all end, and each is made in what
    those before it have left. -/
theorem exists_dialScriptTimes (dialer : Dialer) (endpoint : Endpoint) (times : Nat)
    (script : Script) :
    ∃ runs, dialer.dialScriptTimes endpoint times script = some runs ∧ runs.length = times ∧
      ∀ k run, runs[k]? = some run →
        dialer.dialScript endpoint (script.leftBy endpoint (runs.take k)) = some run := by
  induction times generalizing script with
  | zero => exact ⟨[], rfl, rfl, fun k run hrun => by cases hrun⟩
  | succ times ih =>
      rcases exists_dialScript dialer endpoint script with ⟨first, hfirst⟩
      rcases ih first.world with ⟨runs, hruns, hlength, hall⟩
      refine ⟨first :: runs, ?_, congrArg Nat.succ hlength, ?_⟩
      · rw [Dialer.dialScriptTimes, hfirst, Option.bind_eq_bind, Option.bind_some, hruns]
        rfl
      · intro k run hrun
        cases k with
        | zero =>
            cases hrun
            exact hfirst
        | succ k =>
            have hleft : script.leftBy endpoint ((first :: runs).take (k + 1)) =
                first.world.leftBy endpoint (runs.take k) := by
              rw [world_of_dialFor hfirst, Script.leftBy, Script.leftBy, List.take_succ_cons,
                List.flatMap_cons, played_append]
            rw [hleft]
            exact hall k run hrun

/-- A dialer can be used again. The dials that are made one after another on one
    dialer all end, and each is made in what those before it have left of the
    script: the steps and the calls to come, the flag, and the clock. With the
    clock started anew it would go the same way, if it takes the clock to its
    latest time neither way, and would leave the same but for the reading of the
    clock. -/
theorem dials_start_afresh (dialer : Dialer) (endpoint : Endpoint) (times : Nat)
    (script : Script) :
    ∃ runs, dialer.dialScriptTimes endpoint times script = some runs ∧ runs.length = times ∧
      ∀ k run, runs[k]? = some run →
        dialer.dialScript endpoint (script.leftBy endpoint (runs.take k)) = some run ∧
        (dialer.runsOut endpoint (script.leftBy endpoint (runs.take k)) = false →
          dialer.runsOut endpoint (script.leftBy endpoint (runs.take k)).restarted = false →
          ∃ fresh,
            dialer.dialScript endpoint (script.leftBy endpoint (runs.take k)).restarted =
                some fresh ∧
              fresh.result = run.result ∧ fresh.events = run.events ∧
              fresh.world = run.world.shifted (script.leftBy endpoint (runs.take k)).time) := by
  rcases exists_dialScriptTimes dialer endpoint times script with ⟨runs, hruns, hlength, hall⟩
  refine ⟨runs, hruns, hlength, fun k run hrun => ⟨hall k run hrun, fun hclear hclear' => ?_⟩⟩
  have hdial := hall k run hrun
  rcases exists_dialScript dialer endpoint (script.leftBy endpoint (runs.take k)).restarted with
    ⟨fresh, hfresh⟩
  rw [Dialer.runsOut, hdial] at hclear
  rw [Dialer.runsOut, hfresh] at hclear'
  simp only [] at hclear hclear'
  refine ⟨fresh, hfresh, ?_⟩
  rw [← shifted_time] at hfresh hclear'
  rcases dialScript_shifted hdial hfresh hclear hclear' with ⟨hreport, hworld⟩
  exact ⟨congrArg Prod.fst hreport, congrArg Prod.snd hreport, hworld⟩

/-- A server that comes up late, on a clock that jumps. -/
def jumpy : Script :=
  ⟨0, [⟨.ofSeconds 5, .zero, false, .error (.bare .notFound)⟩,
    ⟨.zero, .ofSeconds 7, false, .error (.bare .connectionRefused)⟩,
    ⟨.zero, .zero, false, .ok 7⟩], false, none⟩

/-- The first dial is too late after five seconds, and the second begins then. It
    comes through, and it does so on a clock that has just been started. -/
theorem dials_start_afresh_jumpy :
    ∃ first second fresh,
      Dialer.dialScriptTimes ⟨Policy.standard.withDeadline (.ofMillis 350), true⟩
        ⟨[47, 97], .unixSocket⟩ 2 jumpy = some [first, second] ∧
      first.result = .error (.deadlineElapsed ⟨[47, 97], .unixSocket⟩ (.ofSeconds 5) 1) ∧
      Dialer.dialScript ⟨Policy.standard.withDeadline (.ofMillis 350), true⟩
        ⟨[47, 97], .unixSocket⟩ first.world.restarted = some fresh ∧
      second.report = (.ok 7, [.connect, .sleep (.ofMillis 100), .connect]) ∧
      fresh.result = second.result ∧ fresh.events = second.events := by
  rcases dials_start_afresh ⟨Policy.standard.withDeadline (.ofMillis 350), true⟩
    ⟨[47, 97], .unixSocket⟩ 2 jumpy with ⟨runs, hruns, _, hall⟩
  have htwo : Dialer.dialScriptTimes ⟨Policy.standard.withDeadline (.ofMillis 350), true⟩
      ⟨[47, 97], .unixSocket⟩ 2 jumpy =
        some [⟨.error (.deadlineElapsed ⟨[47, 97], .unixSocket⟩ (.ofSeconds 5) 1), [.connect],
            ⟨5000000000, jumpy.steps.drop 1, false, none⟩⟩,
          ⟨.ok 7, [.connect, .sleep (.ofMillis 100), .connect],
            ⟨-1900000000, [], false, none⟩⟩] := by
    rfl
  rw [htwo, Option.some.injEq] at hruns
  subst hruns
  rcases (hall 1 _ rfl).2 (by rfl) (by rfl) with ⟨fresh, hfresh, hresult, hevents, _⟩
  exact ⟨_, _, fresh, htwo, rfl, hfresh, rfl, hresult, hevents⟩

end Dial

end FramedIpc
