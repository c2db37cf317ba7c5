import FramedIpc.Proofs.Dial.Course

/-!
# The Diary of a Dial

A dial looks at a clock, but what it reports does not say when it did what. A
diary does: it notes every attempt and every pause together with the reading
of the clock as they begin. Unlike the report, which there is only once a dial
has ended, the diary of so many rounds is there in any case, so that what is
shown of diaries is so of dials that never end as well.

Diaries are kept by a world that notes what is done to it. A dial cannot see
the notes. More generally, of two worlds such that a view of the states of the
one shows all that the other does, a dial makes the same (`Shows`,
`dialFrom_of_shows`); a world with notes and the one without are such a pair.

## Main definitions

* `Shows`: A view of one world's states shows another world.
* `Entry`: An event, and the reading of the clock as it began.
* `World.timed`: A world that notes what is done to it, and when.
* `Dialer.diary`: What a dial has noted after so many rounds.
* `Dialer.trace`: What it has done, without the readings.

## Theorems

* `dialFrom_of_shows`: A dial sees no more of a world than is shown.
* `map_event_stage`: Rounds that go by are noted as attempts and pauses.
* `diary_cases`: A diary notes the rounds that went by, and the last attempt.
* `trace_of_dialFor`, `trace_of_none`: What a dial has done is what it reports,
  or all of its rounds.
* `mem_diary_of_goesOn`: A round that goes by notes its pause.
-/

namespace FramedIpc

namespace Dial

variable {σ σ' κ : Type}

/-- Whether a view of the states of a world shows another world: what each
    call does, as far as it is seen, is what the call does to the other. -/
structure Shows (seen : World σ κ) (world : World σ' κ) (view : σ' → σ) : Prop where
  connect : ∀ endpoint s, seen.connect endpoint (view s) =
    ((world.connect endpoint s).1, view (world.connect endpoint s).2)
  now : ∀ s, seen.now (view s) = world.now s
  sleep : ∀ pause s, seen.sleep pause (view s) = view (world.sleep pause s)
  cancelled : ∀ s, seen.cancelled (view s) = world.cancelled s

/-- A run as it is seen through a view. -/
def Run.seen (view : σ' → σ) (run : Run σ' κ) : Run σ κ :=
  ⟨run.result, run.events, view run.world⟩

/-- A dial sees no more of a world than is shown. -/
theorem dialFrom_of_shows {seen : World σ κ} {world : World σ' κ} {view : σ' → σ}
    (h : Shows seen world view) (dialer : Dialer) (endpoint : Endpoint) (start : Int)
    (rounds : Nat) (attempts : UInt32) (s : σ') :
    (dialer.dialFrom world endpoint start rounds attempts s).map (Run.seen view) =
      dialer.dialFrom seen endpoint start rounds attempts (view s) := by
  induction rounds generalizing attempts s with
  | zero => rfl
  | succ rounds ih =>
      rw [Dialer.dialFrom, Dialer.dialFrom, h.cancelled, h.connect]
      by_cases hoff : (dialer.heedsCancel && world.cancelled s) = true
      · rw [if_pos hoff, if_pos hoff]
        rfl
      rw [if_neg hoff, if_neg hoff]
      rcases world.connect endpoint s with ⟨fault | stream, s'⟩
      · simp only [h.now]
        rcases dialer.policy.afterFailure endpoint (countUp attempts)
            (elapsed start (world.now s')) fault with error | pause
        · rfl
        · -- What the rounds before have done is put in front on both sides.
          simp only [h.sleep]
          rw [← ih, Option.map_map, Option.map_map]
          rfl
      · rfl

/-- An event, and the reading of the clock as it began. -/
structure Entry where
  reading : Int
  event : Event
  deriving DecidableEq, Repr

/-- A world that notes what is done to it, and when. -/
def World.timed (world : World σ κ) : World (σ × List Entry) κ where
  connect endpoint s :=
    ((world.connect endpoint s.1).1,
      ((world.connect endpoint s.1).2, s.2 ++ [⟨world.now s.1, .connect⟩]))
  now s := world.now s.1
  sleep pause s := (world.sleep pause s.1, s.2 ++ [⟨world.now s.1, .sleep pause⟩])
  cancelled s := world.cancelled s.1

/-- Notes are not seen. -/
theorem timed_shows (world : World σ κ) : Shows world world.timed Prod.fst where
  connect _ _ := rfl
  now _ := rfl
  sleep _ _ := rfl
  cancelled _ := rfl

end Dial

namespace Dialer

open Dial

variable {σ κ : Type}

/-- What a dial has noted after so many rounds, whether it has ended in them or
    all of them have gone by. -/
def diary (world : World σ κ) (dialer : Dialer) (endpoint : Endpoint) (rounds : Nat) (s : σ) :
    List Entry :=
  match dialer.dialFor world.timed endpoint rounds (s, []) with
  | some run => run.world.2
  | none => (stage world.timed endpoint dialer.policy.interval rounds (s, [])).2

/-- What a dial has done after so many rounds. -/
def trace (world : World σ κ) (dialer : Dialer) (endpoint : Endpoint) (rounds : Nat) (s : σ) :
    List Event :=
  (dialer.diary world endpoint rounds s).map Entry.event

end Dialer

namespace Dial

variable {σ κ : Type} {world : World σ κ} {dialer : Dialer} {endpoint : Endpoint}

/-- The dial with notes is the dial without them. -/
theorem seen_dialFor (world : World σ κ) (dialer : Dialer) (endpoint : Endpoint) (rounds : Nat)
    (s : σ) :
    (dialer.dialFor world.timed endpoint rounds (s, [])).map (Run.seen Prod.fst) =
      dialer.dialFor world endpoint rounds s :=
  dialFrom_of_shows (timed_shows world) dialer endpoint (world.now s) rounds 0 (s, [])

theorem diary_of_dialFor {rounds : Nat} {s : σ} {run : Run (σ × List Entry) κ}
    (h : dialer.dialFor world.timed endpoint rounds (s, []) = some run) :
    dialer.diary world endpoint rounds s = run.world.2 := by
  rw [Dialer.diary, h]

theorem map_event_stage (world : World σ κ) (endpoint : Endpoint) (pause : Span) (n : Nat)
    (s : σ) :
    (stage world.timed endpoint pause n (s, [])).2.map Entry.event = laps pause n := by
  induction n with
  | zero => rfl
  | succ n ih =>
      rw [stage_succ, laps_concat, ← ih]
      simp only [World.timed, List.map_append, List.append_assoc, List.map_cons, List.map_nil,
        List.cons_append, List.nil_append]

/-- Among the notes of rounds that go by are the pauses of all of them. -/
theorem mem_stage_of_lt {pause : Span} {k n : Nat} (h : k < n) (s : σ) :
    ⟨world.now (world.connect endpoint (stage world.timed endpoint pause k (s, [])).1).2,
        .sleep pause⟩ ∈ (stage world.timed endpoint pause n (s, [])).2 := by
  induction n with
  | zero => exact absurd h (Nat.not_lt_zero k)
  | succ n ih =>
      rw [stage_succ]
      rcases Nat.lt_succ_iff_lt_or_eq.mp h with hlt | rfl
      · exact List.mem_append_left _ (List.mem_append_left _ (ih hlt))
      · exact List.mem_append_right _ (List.mem_singleton_self _)

/-- The last round notes its attempt, if it comes to one. -/
theorem notes_of_ending {start : Int} {made : Nat} {s : σ × List Entry}
    {run : Run (σ × List Entry) κ}
    (h : Ending world.timed dialer endpoint start made s run) :
    ∃ last, run.world.2 = s.2 ++ last ∧ run.events = last.map Entry.event ∧
      (last = [] ∨ last = [⟨world.now s.1, .connect⟩]) := by
  have hnoted : ∀ {outcome : Except Fault κ} {s'},
      world.timed.connect endpoint s = (outcome, s') →
        s'.2 = s.2 ++ [⟨world.now s.1, .connect⟩] := by
    intro outcome s' hconnect
    rw [World.timed, Prod.mk.injEq] at hconnect
    rw [← hconnect.2]
  cases h with
  | cancelled _ => exact ⟨[], (List.append_nil _).symm, rfl, Or.inl rfl⟩
  | opened _ hconnect => exact ⟨_, hnoted hconnect, rfl, Or.inr rfl⟩
  | refused _ hconnect _ => exact ⟨_, hnoted hconnect, rfl, Or.inr rfl⟩
  | exhausted _ hconnect _ _ _ => exact ⟨_, hnoted hconnect, rfl, Or.inr rfl⟩
  | late _ hconnect _ _ _ _ => exact ⟨_, hnoted hconnect, rfl, Or.inr rfl⟩

/-- A diary notes the rounds that went by, as many as there were, and the
    attempt of the last one if the dial has ended with an attempt. Once it has
    ended, the events of the diary are those that the dial reports. -/
theorem diary_cases (world : World σ κ) (dialer : Dialer) (endpoint : Endpoint) (rounds : Nat)
    (s : σ) :
    ∃ n last,
      (∀ k < n, GoesOn world.timed dialer endpoint (world.now s) k
        (stage world.timed endpoint dialer.policy.interval k (s, []))) ∧
      (n < rounds → ¬ GoesOn world.timed dialer endpoint (world.now s) n
        (stage world.timed endpoint dialer.policy.interval n (s, []))) ∧
      dialer.diary world endpoint rounds s =
        (stage world.timed endpoint dialer.policy.interval n (s, [])).2 ++ last ∧
      (last = [] ∨ last =
        [⟨world.now (stage world.timed endpoint dialer.policy.interval n (s, [])).1,
          .connect⟩]) ∧
      ∀ run, dialer.dialFor world endpoint rounds s = some run →
        run.events = (dialer.diary world endpoint rounds s).map Entry.event := by
  have hseen := seen_dialFor world dialer endpoint rounds s
  rcases dialFor_cases world.timed dialer endpoint rounds (s, []) with
    ⟨n, ending, _, hbefore, hending, hdial⟩ | ⟨hall, hdial⟩
  · -- The diary of a dial that has ended is cut where its last round began.
    rcases notes_of_ending hending with ⟨last, hnotes, hevents, hlast⟩
    have hdiary : dialer.diary world endpoint rounds s =
        (stage world.timed endpoint dialer.policy.interval n (s, [])).2 ++ last :=
      (diary_of_dialFor hdial).trans hnotes
    refine ⟨n, last, hbefore, fun _ => hending.not_goesOn, hdiary, hlast, fun run hrun => ?_⟩
    rw [← hseen, hdial] at hrun
    cases hrun
    rw [hdiary, List.map_append, map_event_stage, ← hevents]
    rfl
  · refine ⟨rounds, [], hall, fun hlt => absurd hlt (Nat.lt_irrefl _), ?_, Or.inl rfl,
      fun run hrun => ?_⟩
    · rw [Dialer.diary, hdial, List.append_nil]
    · rw [← hseen, hdial] at hrun
      cases hrun

/-- A dial that has ended has done what it reports. -/
theorem trace_of_dialFor {rounds : Nat} {s : σ} {run : Run σ κ}
    (h : dialer.dialFor world endpoint rounds s = some run) :
    dialer.trace world endpoint rounds s = run.events := by
  rcases diary_cases world dialer endpoint rounds s with ⟨_, _, _, _, _, _, hevents⟩
  exact (hevents run h).symm

/-- A dial that has not ended has gone through all of its rounds. -/
theorem trace_of_none {rounds : Nat} {s : σ}
    (h : dialer.dialFor world endpoint rounds s = none) :
    dialer.trace world endpoint rounds s = laps dialer.policy.interval rounds := by
  have hseen := seen_dialFor world dialer endpoint rounds s
  rw [h, Option.map_eq_none_iff] at hseen
  rw [Dialer.trace, Dialer.diary, hseen]
  exact map_event_stage world endpoint dialer.policy.interval rounds s

/-- A round that goes by, as those before it have, notes its pause. -/
theorem mem_diary_of_goesOn {rounds k : Nat} {s : σ} (hk : k < rounds)
    (hgoes : ∀ j ≤ k, GoesOn world.timed dialer endpoint (world.now s) j
      (stage world.timed endpoint dialer.policy.interval j (s, []))) :
    ⟨world.now (world.connect endpoint
        (stage world.timed endpoint dialer.policy.interval k (s, [])).1).2,
      .sleep dialer.policy.interval⟩ ∈ dialer.diary world endpoint rounds s := by
  rcases diary_cases world dialer endpoint rounds s with ⟨n, last, _, hends, hdiary, _, _⟩
  have hlt : k < n := Nat.lt_of_not_le fun hle =>
    hends (Nat.lt_of_le_of_lt hle hk) (hgoes n hle)
  rw [hdiary]
  exact List.mem_append_left last (mem_stage_of_lt hlt s)

end Dial

end FramedIpc
