import FramedIpc.Dial.Script
import FramedIpc.Proofs.Dial.Alike
import FramedIpc.Proofs.Dial.Record

/-!
# Calling a Dial Off

Whoever raises the flag wants the dial to stop, and may raise it at any moment:
before the dial, while an attempt is being made, or during a pause. A dial looks
at the flag only between its rounds, so how soon it stops depends on the moment.
A call that comes before the dial or during a pause is seen before anything else
is begun. One that comes during an attempt is seen after the round, so there may
be a pause yet; but if that attempt is the last in any case, it decides how the
dial ends, as if nobody had called.

A moment is the number of the events that have begun by then. That the flag was
raised at it is said of the states that these events have made of the world
(`RaisedAt`), so nothing is asked of the world but that a flag which was raised
stays raised (`Lasting`). The rounds that went by then tell the moment almost
exactly: a round began with the flag down, so the flag was raised after the last
of them began (`lt_of_lowered`).

The flag is nothing to a dial that does not heed it. Two worlds which differ in
the flag alone are alike to such a dial, whenever it is raised in them, if at all.

## Main definitions

* `Lasting`: Whether a flag that is raised stays raised.
* `Later`: The states that dials can come to from a state.
* `RaisedAt`: Whether the flag was raised at a moment of some events.
* `Decides`: What an attempt that ends a dial makes its result.
* `Heeds`: What a dial does that was called off at a moment.
* `SameButFlag`: Whether two worlds differ in the flag alone.
* `Script.uncalled`: A script in which nobody calls a dial off.

## Theorems

* `Lasting.played`, `Lasting.later`: A call is never taken back.
* `Ending.decides`: The last attempt decides.
* `lt_of_lowered`: A round that began with the flag down began before the call.
* `drop_laps_of_raised`: What a dial still does after a call.
* `RaisedAt.later`: Later dials do nothing.
* `heeds_of_calledOff`, `heeds_of_attempt`: How the last round takes a call.
* `report_of_sameButFlag`: A dial that does not heed the flag cannot tell.
* `dial_heeds_call`: A call ends a dial, and all later ones.
* `lasting_script`, `sameButFlag_script`: Scripted worlds are such worlds.
-/

namespace FramedIpc.Dial

variable {σ σ' κ : Type}

/-- Whether a flag that is raised stays raised, whatever is done to the world. -/
structure Lasting (world : World σ κ) : Prop where
  connect : ∀ endpoint s, world.cancelled s = true →
    world.cancelled (world.connect endpoint s).2 = true
  sleep : ∀ pause s, world.cancelled s = true → world.cancelled (world.sleep pause s) = true

/-- The states that dials can come to from a state, whoever makes them. -/
inductive Later (world : World σ κ) (s : σ) : σ → Prop where
  | now : Later world s s
  | connect {s' : σ} (endpoint : Endpoint) :
      Later world s s' → Later world s (world.connect endpoint s').2
  | sleep {s' : σ} (pause : Span) : Later world s s' → Later world s (world.sleep pause s')

/-- Whether the flag was raised when so many of some events had begun: before
    the first of them, or while the last of so many went on. -/
structure RaisedAt (world : World σ κ) (endpoint : Endpoint) (s : σ) (events : List Event)
    (moment : Nat) : Prop where
  within : moment ≤ events.length
  lowered : ∀ k < moment, world.cancelled (world.played endpoint (events.take k) s) = false
  raised : world.cancelled (world.played endpoint (events.take moment) s) = true

/-- What an attempt that ends a dial makes its result, if it began at `s` after
    `made` others: its stream, or the error that its failure leads to. -/
def Decides (world : World σ κ) (policy : Policy) (endpoint : Endpoint) (start : Int) (made : Nat)
    (s : σ) (result : Except Error κ) : Prop :=
  match (world.connect endpoint s).1 with
  | .ok stream => result = .ok stream
  | .error fault => ∃ error,
    policy.afterFailure endpoint (tally (made + 1))
        (elapsed start (world.now (world.connect endpoint s).2)) fault = .error error ∧
      result = .error error

/-- What a dial does that was called off when so many of its events had begun. -/
structure Heeds (world : World σ κ) (policy : Policy) (endpoint : Endpoint) (s : σ) (moment : Nat)
    (run : Run σ κ) : Prop where
  /-- No attempt begins any more, and no more than one pause. -/
  after : run.events.drop moment = [] ∨ run.events.drop moment = [.sleep policy.interval]
  /-- A pause begins only if the call came during an attempt that failed for a
      reason that passes, and within both limits. -/
  pause : run.events.drop moment ≠ [] →
    ∃ made, run.events.take moment = laps policy.interval made ++ [.connect] ∧
      GoesOn world ⟨policy, true⟩ endpoint (world.now s) made
        (stage world endpoint policy.interval made s)
  /-- An attempt that ends the dial decides how, although the call came during it. -/
  decided : ∀ made, run.events = laps policy.interval made ++ [.connect] →
    moment = run.events.length ∧
      Decides world policy endpoint (world.now s) made
        (stage world endpoint policy.interval made s) run.result ∧
      wasCancelled run.result = false
  /-- In any other case the dial reports the call, with the attempts that it has
      made, as far as the count can show them. -/
  called : (∀ made, run.events ≠ laps policy.interval made ++ [.connect]) →
    ∃ attempts, run.result = .error (.cancelled endpoint attempts) ∧
      attempts.toNat = min (run.events.count .connect) 4294967295
  /-- All later dials that heed the flag are over before they have begun. -/
  later : ∀ s', Later world run.world s' → ∀ policy' endpoint' rounds,
    Dialer.dialFor world ⟨policy', true⟩ endpoint' (rounds + 1) s' =
      some ⟨.error (.cancelled endpoint' 0), [], s'⟩

/-- Whether two worlds differ in the flag alone: states of the one that are twins
    of states of the other stay so, and show the same but for the flag. -/
structure SameButFlag (one : World σ κ) (other : World σ' κ) (twin : σ → σ' → Prop) : Prop where
  connect : ∀ endpoint s s', twin s s' →
    (one.connect endpoint s).1 = (other.connect endpoint s').1 ∧
      twin (one.connect endpoint s).2 (other.connect endpoint s').2
  now : ∀ s s', twin s s' → one.now s = other.now s'
  sleep : ∀ pause s s', twin s s' → twin (one.sleep pause s) (other.sleep pause s')

section Heeding

variable {world : World σ κ} {policy : Policy} {endpoint : Endpoint} {s : σ}

/-- A call is not taken back by anything that a dial does, -/
theorem Lasting.played (hlasting : Lasting world) (endpoint : Endpoint) (events : List Event)
    {s : σ} (h : world.cancelled s = true) :
    world.cancelled (world.played endpoint events s) = true := by
  induction events generalizing s with
  | nil => exact h
  | cons event events ih =>
      cases event with
      | connect => exact ih (hlasting.connect endpoint s h)
      | sleep pause => exact ih (hlasting.sleep pause s h)

/-- or that later ones do. -/
theorem Lasting.later (hlasting : Lasting world) {s' : σ} (hlater : Later world s s')
    (h : world.cancelled s = true) : world.cancelled s' = true := by
  induction hlater with
  | now => exact h
  | connect endpoint _ ih => exact hlasting.connect endpoint _ ih
  | sleep pause _ ih => exact hlasting.sleep pause _ ih

theorem calledOff_iff {s : σ} :
    CalledOff world ⟨policy, true⟩ s ↔ world.cancelled s = true :=
  ⟨And.right, And.intro rfl⟩

/-- A dial that begins with the flag raised is over before it has begun. -/
theorem dialFor_of_cancelled (h : world.cancelled s = true) (rounds : Nat) :
    Dialer.dialFor world ⟨policy, true⟩ endpoint (rounds + 1) s =
      some ⟨.error (.cancelled endpoint 0), [], s⟩ :=
  dialFor_of_ending (Nat.succ_pos rounds) (fun k hk => absurd hk (Nat.not_lt_zero k))
    (.cancelled (calledOff_iff.mpr h))

/-- An attempt that ends a dial decides how it ends. -/
theorem Ending.decides {start : Int} {made : Nat} {last : Run σ κ}
    (h : Ending world ⟨policy, true⟩ endpoint start made s last)
    (hgo : ¬ CalledOff world ⟨policy, true⟩ s) :
    Decides world policy endpoint start made s last.result ∧
      wasCancelled last.result = false := by
  refine ⟨?_, ?_⟩
  · have hdial := dialFrom_of_ending h 0
    rw [Dialer.dialFrom, countUp_tally, if_neg (by rw [Bool.and_eq_true]; exact hgo)] at hdial
    rw [Decides]
    rcases hconnect : world.connect endpoint s with ⟨fault | stream, s'⟩
    · rw [hconnect] at hdial
      simp only [] at hdial ⊢
      rcases hnext : policy.afterFailure endpoint (tally (made + 1))
          (elapsed start (world.now s')) fault with error | pause
      · rw [hnext] at hdial
        cases hdial
        exact ⟨error, rfl, rfl⟩
      · -- A pause would have been followed by another round.
        rw [hnext] at hdial
        cases hdial
    · rw [hconnect] at hdial
      cases hdial
      rfl
  · cases h with
    | cancelled hoff => exact absurd hoff hgo
    | opened _ _ => rfl
    | refused _ _ _ => rfl
    | exhausted _ _ _ _ _ => rfl
    | late _ _ _ _ _ _ => rfl

theorem take_laps {pause : Span} {k n : Nat} (h : k ≤ n) (events : List Event) :
    (laps pause n ++ events).take (2 * k) = laps pause k := by
  have hfront : laps pause k <+: laps pause n ++ events :=
    (laps_front h).trans (List.prefix_append _ _)
  rw [List.prefix_iff_eq_take.mp hfront, length_laps]

/-- A round that began with the flag down began before the call. -/
theorem lt_of_lowered (hlasting : Lasting world) {pause : Span} {events : List Event}
    {k n moment : Nat} (hraised : RaisedAt world endpoint s (laps pause n ++ events) moment)
    (hk : k ≤ n) (hdown : world.cancelled (stage world endpoint pause k s) = false) :
    2 * k < moment := by
  refine Nat.lt_of_not_le fun hle => ?_
  -- Otherwise the flag would have been raised by the time the round began.
  have hfront := List.take_prefix_take_left (l := laps pause n ++ events) hle
  rw [take_laps hk] at hfront
  rcases hfront with ⟨rest, hrest⟩
  have hup := hlasting.played endpoint rest hraised.raised
  rw [← played_append, hrest, played_laps, hdown] at hup
  cases hup

/-- Rounds that go by do not end with an attempt. -/
theorem laps_ne_concat (pause : Span) (n made : Nat) :
    laps pause n ≠ laps pause made ++ [.connect] := by
  intro h
  have hlength := congrArg List.length h
  rw [List.length_append, length_laps, length_laps, List.length_singleton] at hlength
  omega

/-- The events of a dial that was called off at the last round, split at the
    call: it came in the round before, or there was none. -/
theorem drop_laps_of_raised (hlasting : Lasting world) {n moment : Nat}
    (hbefore : ∀ k < n, GoesOn world ⟨policy, true⟩ endpoint (world.now s) k
      (stage world endpoint policy.interval k s))
    (hraised : RaisedAt world endpoint s (laps policy.interval n) moment) :
    (laps policy.interval n).drop moment = [] ∨
      ((laps policy.interval n).drop moment = [.sleep policy.interval] ∧
        ∃ made, (laps policy.interval n).take moment = laps policy.interval made ++ [.connect] ∧
          GoesOn world ⟨policy, true⟩ endpoint (world.now s) made
            (stage world endpoint policy.interval made s)) := by
  have hwithin := hraised.within
  rw [length_laps] at hwithin
  cases n with
  | zero => exact Or.inl (List.drop_nil)
  | succ n =>
      have hgoes := hbefore n (Nat.lt_succ_self n)
      rw [← List.append_nil (laps policy.interval (n + 1))] at hraised
      have hbegun := lt_of_lowered hlasting hraised (Nat.le_succ n)
        (Bool.not_eq_true _ ▸ mt calledOff_iff.mpr hgoes.heeded)
      have hlength : (laps policy.interval n ++ [Event.connect]).length = 2 * n + 1 := by
        rw [List.length_append, length_laps, List.length_singleton]
      have hsplit : laps policy.interval (n + 1) =
          (laps policy.interval n ++ [.connect]) ++ [.sleep policy.interval] := by
        rw [laps_concat, List.append_assoc]
        rfl
      rcases (by omega : moment = 2 * (n + 1) ∨ moment = 2 * n + 1) with rfl | rfl
      · exact Or.inl (List.drop_of_length_le (Nat.le_of_eq (length_laps _ _)))
      · rw [hsplit]
        exact Or.inr ⟨List.drop_left' hlength, n, List.take_left' hlength, hgoes⟩

/-- The flag is still raised when all of the events have been. -/
theorem RaisedAt.lasts {events : List Event} {moment : Nat}
    (hraised : RaisedAt world endpoint s events moment) (hlasting : Lasting world) :
    world.cancelled (world.played endpoint events s) = true := by
  have hup := hlasting.played endpoint (events.drop moment) hraised.raised
  rw [← played_append, List.take_append_drop] at hup
  exact hup

/-- So later dials that heed it are over before they have begun. -/
theorem RaisedAt.later {events : List Event} {moment : Nat}
    (hraised : RaisedAt world endpoint s events moment) (hlasting : Lasting world) :
    ∀ s', Later world (world.played endpoint events s) s' → ∀ policy' endpoint' rounds,
      Dialer.dialFor world ⟨policy', true⟩ endpoint' (rounds + 1) s' =
        some ⟨.error (.cancelled endpoint' 0), [], s'⟩ :=
  fun _ hlater _ _ rounds =>
    dialFor_of_cancelled (hlasting.later hlater (hraised.lasts hlasting)) rounds

/-- A round that sees the call reports it. The call came in the round before, or
    earlier still. -/
theorem heeds_of_calledOff (hlasting : Lasting world) {n moment : Nat}
    (hbefore : ∀ k < n, GoesOn world ⟨policy, true⟩ endpoint (world.now s) k
      (stage world endpoint policy.interval k s))
    (hraised : RaisedAt world endpoint s (laps policy.interval n) moment) :
    Heeds world policy endpoint s moment
      ⟨.error (.cancelled endpoint (tally n)), laps policy.interval n,
        stage world endpoint policy.interval n s⟩ := by
  have hdrop := drop_laps_of_raised hlasting hbefore hraised
  have hlater := hraised.later hlasting
  rw [played_laps] at hlater
  refine ⟨hdrop.imp id And.left, fun hsome => (hdrop.resolve_left hsome).2, ?_, ?_, hlater⟩
  · intro made hmade
    exact absurd hmade (laps_ne_concat _ _ _)
  · intro _
    rw [count_connect_laps]
    exact ⟨_, rfl, toNat_tally n⟩

/-- A round that began before the call, and is the last, ends as its attempt
    decides. -/
theorem heeds_of_attempt (hlasting : Lasting world) {n moment : Nat} {last : Run σ κ}
    (hending : Ending world ⟨policy, true⟩ endpoint (world.now s) n
      (stage world endpoint policy.interval n s) last)
    (hgo : ¬ CalledOff world ⟨policy, true⟩ (stage world endpoint policy.interval n s))
    (hone : last.events = [.connect])
    (hraised : RaisedAt world endpoint s (laps policy.interval n ++ last.events) moment) :
    Heeds world policy endpoint s moment (last.after (laps policy.interval n)) := by
  have hbegun := lt_of_lowered hlasting hraised (Nat.le_refl n)
    (Bool.not_eq_true _ ▸ mt calledOff_iff.mpr hgo)
  have hwithin : moment ≤ (last.after (laps policy.interval n)).events.length := hraised.within
  have hlater := hraised.later hlasting
  rw [played_append, played_laps, ← hending.world_eq] at hlater
  have hlength : (last.after (laps policy.interval n)).events.length = 2 * n + 1 := by
    rw [Run.after, hone, List.length_append, length_laps, List.length_singleton]
  -- So the call came while the attempt went on, and nothing has begun since.
  have hmoment : moment = (last.after (laps policy.interval n)).events.length := by omega
  have hdrop : (last.after (laps policy.interval n)).events.drop moment = [] := by
    rw [hmoment, List.drop_length]
  refine ⟨Or.inl hdrop, fun hsome => absurd hdrop hsome, ?_, ?_, hlater⟩
  · intro made hmade
    have hsame : n = made := by
      rw [hmade, List.length_append, length_laps, List.length_singleton] at hlength
      omega
    rw [← hsame]
    exact ⟨hmoment, hending.decides hgo⟩
  · intro hnot
    exact absurd (by rw [Run.after, hone]) (hnot n)

/-- How the last round takes a call that came by then. -/
theorem heeds_of_ending (hlasting : Lasting world) {n moment : Nat} {last : Run σ κ}
    (hbefore : ∀ k < n, GoesOn world ⟨policy, true⟩ endpoint (world.now s) k
      (stage world endpoint policy.interval k s))
    (hending : Ending world ⟨policy, true⟩ endpoint (world.now s) n
      (stage world endpoint policy.interval n s) last)
    (hraised : RaisedAt world endpoint s (laps policy.interval n ++ last.events) moment) :
    Heeds world policy endpoint s moment (last.after (laps policy.interval n)) := by
  rcases hending.events_eq with ⟨hoff, _⟩ | ⟨hgo, hone⟩
  · have hlast := hending.unique (.cancelled hoff)
    subst hlast
    rw [List.append_nil] at hraised
    rw [Run.after, List.append_nil]
    exact heeds_of_calledOff hlasting hbefore hraised
  · exact heeds_of_attempt hlasting hending hgo hone hraised

end Heeding

section Unheeding

variable {one : World σ κ} {other : World σ' κ} {twin : σ → σ' → Prop} {endpoint : Endpoint}
  {s : σ} {s' : σ'}

theorem SameButFlag.stage (h : SameButFlag one other twin) (endpoint : Endpoint) (pause : Span)
    (n : Nat) (htwin : twin s s') :
    twin (stage one endpoint pause n s) (stage other endpoint pause n s') := by
  induction n with
  | zero => exact htwin
  | succ n ih =>
      rw [stage_succ, stage_succ]
      exact h.sleep pause _ _ (h.connect endpoint _ _ ih).2

/-- A dial that does not heed the flag cannot tell worlds apart that differ in
    it alone. -/
theorem report_of_sameButFlag (h : SameButFlag one other twin) (policy : Policy)
    (endpoint : Endpoint) (rounds : Nat) (htwin : twin s s') :
    (Dialer.dialFor one ⟨policy, false⟩ endpoint rounds s).map Run.report =
      (Dialer.dialFor other ⟨policy, false⟩ endpoint rounds s').map Run.report := by
  refine report_of_alike fun n _ _ => ?_
  have hstage := h.stage endpoint policy.interval n htwin
  have hconnect := h.connect endpoint _ _ hstage
  refine ⟨?_, fun _ => hconnect.1, fun _ => ?_⟩
  · rw [CalledOff, CalledOff]
    simp only [Bool.false_eq_true, false_and]
  · rw [h.now _ _ htwin, h.now _ _ hconnect.2]

/-- So it does the same in both, even if it has no end. -/
theorem trace_of_sameButFlag (h : SameButFlag one other twin) (policy : Policy)
    (endpoint : Endpoint) (rounds : Nat) (htwin : twin s s') :
    Dialer.trace one ⟨policy, false⟩ endpoint rounds s =
      Dialer.trace other ⟨policy, false⟩ endpoint rounds s' := by
  have hreport := report_of_sameButFlag h policy endpoint rounds htwin
  rcases hone : Dialer.dialFor one ⟨policy, false⟩ endpoint rounds s with _ | run
  · rw [hone, Option.map_none, eq_comm, Option.map_eq_none_iff] at hreport
    rw [trace_of_none hone, trace_of_none hreport]
  · rw [hone, Option.map_some, eq_comm, Option.map_eq_some_iff] at hreport
    rcases hreport with ⟨run', hother, hsame⟩
    rw [trace_of_dialFor hone, trace_of_dialFor hother]
    exact (congrArg Prod.snd hsame).symm

end Unheeding

/-- A call that comes while a dial goes on ends it, within one round more: no
    attempt is begun any more, at most one pause, and the dial reports the call
    with the attempts that it has made, unless the attempt during which the call
    came was to be the last and decides how the dial ends. Every later dial that
    heeds the flag is over at once. To a dial that does not heed it the flag is
    nothing. -/
theorem dial_heeds_call {world : World σ κ} (hlasting : Lasting world) (policy : Policy)
    (endpoint : Endpoint) (s : σ) :
    (∀ rounds moment,
      RaisedAt world endpoint s (Dialer.trace world ⟨policy, true⟩ endpoint rounds s) moment →
      ∃ run, Dialer.dialFor world ⟨policy, true⟩ endpoint (rounds + 1) s = some run ∧
        run.events = Dialer.trace world ⟨policy, true⟩ endpoint rounds s ∧
        Heeds world policy endpoint s moment run) ∧
    ∀ {σ' : Type} (other : World σ' κ) (twin : σ → σ' → Prop) (s' : σ'),
      SameButFlag world other twin → twin s s' → ∀ rounds,
        (Dialer.dialFor world ⟨policy, false⟩ endpoint rounds s).map Run.report =
          (Dialer.dialFor other ⟨policy, false⟩ endpoint rounds s').map Run.report ∧
        Dialer.trace world ⟨policy, false⟩ endpoint rounds s =
          Dialer.trace other ⟨policy, false⟩ endpoint rounds s' := by
  refine ⟨?_, ?_⟩
  · intro rounds moment hraised
    rcases dialFor_cases world ⟨policy, true⟩ endpoint rounds s with
      ⟨n, last, hn, hbefore, hending, hdial⟩ | ⟨hall, hdial⟩
    · rw [trace_of_dialFor hdial] at hraised ⊢
      exact ⟨_, dialFor_of_ending (Nat.lt_succ_of_lt hn) hbefore hending, rfl,
        heeds_of_ending hlasting hbefore hending hraised⟩
    · -- All rounds have gone by, and the next one sees the call.
      rw [trace_of_none hdial] at hraised ⊢
      have hup := hraised.lasts hlasting
      rw [played_laps] at hup
      have hdial' := dialFor_of_ending (Nat.lt_succ_self rounds) hall
        (.cancelled (calledOff_iff.mpr hup))
      rw [Run.after, List.append_nil] at hdial'
      exact ⟨_, hdial', rfl, heeds_of_calledOff hlasting hall hraised⟩
  · intro σ' other twin s' hsame htwin rounds
    exact ⟨report_of_sameButFlag hsame policy endpoint rounds htwin,
      trace_of_sameButFlag hsame policy endpoint rounds htwin⟩

/-- In a scripted world nobody takes a call back. -/
theorem lasting_script : Lasting Script.world where
  connect endpoint script h := by
    change (Script.connect endpoint script).2.cancelled = true
    unfold Script.connect
    split
    · exact h
    · exact Bool.or_eq_true_iff.mpr (Or.inl h)
  sleep pause script h := Bool.or_eq_true_iff.mpr (Or.inl h)

/-- A script in which nobody calls a dial off. -/
def Script.uncalled (script : Script) : Script :=
  ⟨script.time, script.steps.map fun step => { step with cancels := false }, false, none⟩

/-- A script is the same with other calls in it, or with none. -/
theorem sameButFlag_script : SameButFlag Script.world Script.world
    fun script script' => script.uncalled = script'.uncalled where
  connect endpoint script script' htwin := by
    rcases script with ⟨time, steps, flag, left⟩
    rcases script' with ⟨time', steps', flag', left'⟩
    simp only [Script.uncalled, Script.mk.injEq, and_true] at htwin
    rcases htwin with ⟨rfl, hsteps⟩
    rcases steps with _ | ⟨step, steps⟩
    · rw [List.map_nil, eq_comm, List.map_eq_nil_iff] at hsteps
      subst hsteps
      exact ⟨rfl, rfl⟩
    · rcases steps' with _ | ⟨step', steps'⟩
      · cases hsteps
      · rcases step with ⟨advance, rewind, cancels, outcome⟩
        rcases step' with ⟨advance', rewind', cancels', outcome'⟩
        simp only [List.map_cons, List.cons.injEq, Script.Step.mk.injEq, true_and] at hsteps
        rcases hsteps with ⟨⟨rfl, rfl, rfl⟩, hrest⟩
        refine ⟨rfl, ?_⟩
        simp only [Script.world, Script.connect, Script.uncalled, hrest]
  now script script' htwin := by
    simp only [Script.uncalled, Script.mk.injEq] at htwin
    exact htwin.1
  sleep pause script script' htwin := by
    simp only [Script.uncalled, Script.mk.injEq, and_true] at htwin
    simp only [Script.world, Script.sleep, Script.uncalled, htwin.1, htwin.2]

/-- A server that comes up during the third attempt, and a call during the
    second. -/
def calledMeanwhile : Script :=
  ⟨0, [⟨.zero, .zero, false, .error (.bare .notFound)⟩,
    ⟨.zero, .zero, true, .error (.bare .connectionRefused)⟩,
    ⟨.zero, .zero, false, .ok 7⟩], false, none⟩

/-- The call comes as the third event goes on, so there is a pause yet. A dial
    that does not heed it comes through. -/
theorem dial_heeds_call_meanwhile :
    (∃ run, Dialer.dialFor Script.world ⟨.standard, true⟩ ⟨[47, 97], .unixSocket⟩ 3
        calledMeanwhile = some run ∧
      run.events = [.connect, .sleep (.ofMillis 100), .connect, .sleep (.ofMillis 100)] ∧
      run.result = .error (.cancelled ⟨[47, 97], .unixSocket⟩ 2) ∧
      Heeds Script.world .standard ⟨[47, 97], .unixSocket⟩ calledMeanwhile 3 run) ∧
    (Dialer.dialFor Script.world ⟨.standard, false⟩ ⟨[47, 97], .unixSocket⟩ 3
        calledMeanwhile).map Run.report =
      (Dialer.dialFor Script.world ⟨.standard, false⟩ ⟨[47, 97], .unixSocket⟩ 3
        calledMeanwhile.uncalled).map Run.report := by
  have hheeds := dial_heeds_call lasting_script .standard ⟨[47, 97], .unixSocket⟩ calledMeanwhile
  have htrace : Dialer.trace Script.world ⟨.standard, true⟩ ⟨[47, 97], .unixSocket⟩ 2
      calledMeanwhile =
        [.connect, .sleep (.ofMillis 100), .connect, .sleep (.ofMillis 100)] := by
    rfl
  have hraised : RaisedAt Script.world ⟨[47, 97], .unixSocket⟩ calledMeanwhile
      [.connect, .sleep (.ofMillis 100), .connect, .sleep (.ofMillis 100)] 3 := by
    refine ⟨by decide, fun k hk => ?_, rfl⟩
    rcases (by omega : k = 0 ∨ k = 1 ∨ k = 2) with rfl | rfl | rfl <;> rfl
  refine ⟨?_, (hheeds.2 Script.world _ calledMeanwhile.uncalled sameButFlag_script rfl 3).1⟩
  rw [← htrace] at hraised
  rcases hheeds.1 2 3 hraised with ⟨run, hdial, hevents, hrun⟩
  have hresult : Dialer.dialFor Script.world ⟨.standard, true⟩ ⟨[47, 97], .unixSocket⟩ 3
      calledMeanwhile = some ⟨.error (.cancelled ⟨[47, 97], .unixSocket⟩ 2),
        [.connect, .sleep (.ofMillis 100), .connect, .sleep (.ofMillis 100)],
        ⟨200000000, [⟨.zero, .zero, false, .ok 7⟩], true, none⟩⟩ := by
    rfl
  rw [hdial, Option.some.injEq] at hresult
  exact ⟨run, hdial, hevents.trans htrace, by rw [hresult], hrun⟩

end FramedIpc.Dial
