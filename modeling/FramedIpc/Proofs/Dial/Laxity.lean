import FramedIpc.Dial.Script
import FramedIpc.Proofs.Dial.Diary
import FramedIpc.Proofs.Dial.Record

/-!
# Relaxing a Policy

The limits of a policy only decide when to stop. So of two dials that differ
in their limits alone, in one world and from one state of it, the one with the
laxer limits does all that the other does, and then perhaps more. There is no
world in which it gives up where the other would have come through.

The two go in step for as long as the stricter one goes on, since a round that
the stricter limits let go by is let go by with the laxer ones (`GoesOn.relax`),
and at a last round there are two cases. If it was the stream, the failure or
the flag that ended the dial, the limits had no say in it, and the laxer dial
ends in the same way (`Ending.relax`). If it was a limit, the laxer dial has made
that attempt as well, and ends there or goes on.

A dial may have no end. It is therefore the traces after any number of rounds
that are compared, and a dial that has not ended yet is one of the cases.

## Main definitions

* `AtLeastAsLax`: Whether a policy differs from another in laxer limits only.
* `stoppedByLimit`: Whether it was a limit that ended a dial.

## Theorems

* `GoesOn.relax`: What goes by under stricter limits goes by under laxer ones.
* `Ending.relax`: What ends a dial whatever the limits ends both.
* `trace_front`: The laxer dial does what the stricter one does, and more.
* `dialFor_of_laxer`: All of it, with the results.
-/

namespace FramedIpc.Dial

variable {σ κ : Type}

/-- Whether a policy is at least as lax as another: it pauses as long, and each
    of its limits is one of the other as well, and not smaller. A budget of no
    attempts is one of one attempt. -/
structure AtLeastAsLax (strict lax : Policy) : Prop where
  interval : lax.interval = strict.interval
  attempts : ∀ most, lax.maxAttempts = some most →
    ∃ limit, strict.maxAttempts = some limit ∧ max 1 limit.toNat ≤ max 1 most.toNat
  deadline : ∀ late, lax.deadline = some late →
    ∃ early, strict.deadline = some early ∧ early.toNanos ≤ late.toNanos

/-- Whether it was a limit of the policy that ended a dial. -/
def stoppedByLimit : Except Error κ → Bool
  | .error (.retriesExhausted _ _ _) => true
  | .error (.deadlineElapsed _ _ _) => true
  | _ => false

variable {world : World σ κ} {endpoint : Endpoint} {strict lax : Policy} {heeds : Bool}
  {start : Int} {made : Nat} {s : σ}

/-- A round that goes by under the stricter limits goes by under the laxer ones. -/
theorem GoesOn.relax (h : GoesOn world ⟨strict, heeds⟩ endpoint start made s)
    (hlax : AtLeastAsLax strict lax) : GoesOn world ⟨lax, heeds⟩ endpoint start made s where
  heeded := h.heeded
  failed := h.failed
  budget := by
    intro most hmost
    rcases hlax.attempts most hmost with ⟨limit, hlimit, hle⟩
    have hbudget := h.budget limit hlimit
    omega
  time := by
    intro late hlate
    rcases hlax.deadline late hlate with ⟨early, hearly, hle⟩
    have htime := h.time early hearly
    simp only [hlax.interval] at htime ⊢
    omega

/-- A round that is the last whatever the limits is the last under others. -/
theorem Ending.relax {last : Run σ κ} (h : Ending world ⟨strict, heeds⟩ endpoint start made s last)
    (hfree : stoppedByLimit last.result = false) :
    Ending world ⟨lax, heeds⟩ endpoint start made s last := by
  cases h with
  | cancelled hoff => exact .cancelled hoff
  | opened hgo hconnect => exact .opened hgo hconnect
  | refused hgo hconnect hretry => exact .refused hgo hconnect hretry
  | exhausted _ _ _ _ _ => cases hfree
  | late _ _ _ _ _ _ => cases hfree

/-- The laxer dial does what the stricter one does, and then perhaps more. -/
theorem trace_front (world : World σ κ) (endpoint : Endpoint) (heeds : Bool) (s : σ)
    (hlax : AtLeastAsLax strict lax) {rounds rounds' : Nat} (hle : rounds ≤ rounds') :
    Dialer.trace world ⟨strict, heeds⟩ endpoint rounds s <+:
      Dialer.trace world ⟨lax, heeds⟩ endpoint rounds' s := by
  have hlaxer := dialFor_cases world ⟨lax, heeds⟩ endpoint rounds' s
  simp only [hlax.interval] at hlaxer
  rcases dialFor_cases world ⟨strict, heeds⟩ endpoint rounds s with
    ⟨n, last, hn, hbefore, hending, hdial⟩ | ⟨hall, hdial⟩
  · rw [trace_of_dialFor hdial]
    have hevents : last.events = [] ∨ last.events = [Event.connect] :=
      hending.events_eq.imp And.right And.right
    rcases hlaxer with ⟨m, last', hm, _, hending', hdial'⟩ | ⟨_, hdial'⟩
    · rw [trace_of_dialFor hdial']
      -- The laxer dial gets as far as the last round of the stricter one.
      have hfar : n ≤ m := Nat.le_of_not_lt fun hlt =>
        hending'.not_goesOn ((hbefore m hlt).relax hlax)
      rcases Nat.lt_or_eq_of_le hfar with hlt | rfl
      · exact (laps_append_front hlt hevents).trans (List.prefix_append _ _)
      · refine (List.prefix_append_right_inj _).mpr ?_
        rcases hending.events_eq with ⟨_, hnone⟩ | ⟨hgo, hone⟩
        · rw [hnone]
          exact List.nil_prefix
        · rcases hending'.events_eq with ⟨hoff, _⟩ | ⟨_, hone'⟩
          · exact absurd hoff hgo
          · have hsame : last.events = last'.events := hone.trans hone'.symm
            exact hsame ▸ List.prefix_refl last.events
    · rw [trace_of_none hdial']
      simp only [hlax.interval]
      exact laps_append_front (Nat.lt_of_lt_of_le hn hle) hevents
  · rw [trace_of_none hdial]
    rcases hlaxer with ⟨m, last', hm, _, hending', hdial'⟩ | ⟨_, hdial'⟩
    · rw [trace_of_dialFor hdial']
      have hfar : rounds ≤ m := Nat.le_of_not_lt fun hlt =>
        hending'.not_goesOn ((hall m hlt).relax hlax)
      exact (laps_front hfar).trans (List.prefix_append _ _)
    · rw [trace_of_none hdial']
      simp only [hlax.interval]
      exact laps_front hle

/-- A dial that no limit has ended goes the same way under laxer limits. -/
theorem dialFor_of_free (hlax : AtLeastAsLax strict lax) {rounds : Nat} {run : Run σ κ}
    (h : Dialer.dialFor world ⟨strict, heeds⟩ endpoint rounds s = some run)
    (hfree : stoppedByLimit run.result = false) :
    Dialer.dialFor world ⟨lax, heeds⟩ endpoint rounds s = some run := by
  rcases dialFor_cases world ⟨strict, heeds⟩ endpoint rounds s with
    ⟨n, last, hn, hbefore, hending, hdial⟩ | ⟨_, hdial⟩
  · rw [hdial, Option.some.injEq] at h
    rw [← h] at hfree ⊢
    have hbefore' : ∀ k < n, GoesOn world ⟨lax, heeds⟩ endpoint (world.now s) k
        (stage world endpoint lax.interval k s) := by
      rw [hlax.interval]
      exact fun k hk => (hbefore k hk).relax hlax
    have hending' : Ending world ⟨lax, heeds⟩ endpoint (world.now s) n
        (stage world endpoint lax.interval n s) last := by
      rw [hlax.interval]
      exact hending.relax hfree
    rw [dialFor_of_ending hn hbefore' hending', hlax.interval]
  · rw [hdial] at h
    cases h

/-- A dial that goes through all of its rounds goes through them under laxer
    limits. -/
theorem dialFor_none_of_laxer (hlax : AtLeastAsLax strict lax) {rounds : Nat}
    (h : Dialer.dialFor world ⟨strict, heeds⟩ endpoint rounds s = none) :
    Dialer.dialFor world ⟨lax, heeds⟩ endpoint rounds s = none := by
  rcases dialFor_cases world ⟨strict, heeds⟩ endpoint rounds s with
    ⟨n, last, _, _, _, hdial⟩ | ⟨hall, _⟩
  · rw [hdial] at h
    cases h
  have hlaxer := dialFor_cases world ⟨lax, heeds⟩ endpoint rounds s
  simp only [hlax.interval] at hlaxer
  rcases hlaxer with ⟨m, last', hm, _, hending', _⟩ | ⟨_, hdial'⟩
  · exact absurd ((hall m hm).relax hlax) hending'.not_goesOn
  · exact hdial'

/-- Relaxing the limits only extends a dial, in every world and whatever happens
    in it. What the dial does under the stricter limits is the beginning of what
    it does under the laxer ones, and if it has no end under the one it has none
    under the other. A dial that the limits have not ended ends in the same
    round, with the same result, events and world. One that they have ended has
    made no more attempts than it makes under the laxer ones. -/
theorem dialFor_of_laxer (hlax : AtLeastAsLax strict lax) (heeds : Bool) (world : World σ κ)
    (endpoint : Endpoint) (s : σ) :
    (∀ policy rounds run, Dialer.dialFor world ⟨policy, heeds⟩ endpoint rounds s = some run →
      Dialer.trace world ⟨policy, heeds⟩ endpoint rounds s = run.events) ∧
    (∀ rounds rounds', rounds ≤ rounds' →
      Dialer.trace world ⟨strict, heeds⟩ endpoint rounds s <+:
        Dialer.trace world ⟨lax, heeds⟩ endpoint rounds' s) ∧
    (∀ rounds, Dialer.dialFor world ⟨strict, heeds⟩ endpoint rounds s = none →
      Dialer.dialFor world ⟨lax, heeds⟩ endpoint rounds s = none) ∧
    ∀ rounds run, Dialer.dialFor world ⟨strict, heeds⟩ endpoint rounds s = some run →
      (stoppedByLimit run.result = false →
        Dialer.dialFor world ⟨lax, heeds⟩ endpoint rounds s = some run) ∧
      (stoppedByLimit run.result = true → ∀ rounds', rounds ≤ rounds' →
        run.events.count .connect ≤
          (Dialer.trace world ⟨lax, heeds⟩ endpoint rounds' s).count .connect) := by
  refine ⟨fun _ _ _ hdial => trace_of_dialFor hdial, ?_, ?_, ?_⟩
  · intro rounds rounds' hle
    exact trace_front world endpoint heeds s hlax hle
  · intro rounds hnone
    exact dialFor_none_of_laxer hlax hnone
  · intro rounds run hdial
    refine ⟨dialFor_of_free hlax hdial, fun _ rounds' hle => ?_⟩
    have hprefix := trace_front world endpoint heeds s hlax hle
    rw [trace_of_dialFor hdial] at hprefix
    exact hprefix.sublist.count_le _

/-- The server comes up during the third attempt. Two attempts in a second are
    too few, and three do not need the second. -/
theorem dialFor_of_laxer_comingUp :
    Dialer.dialFor Script.world ⟨(Policy.standard.withMaxAttempts 2).withDeadline (.ofSeconds 1),
        true⟩ ⟨[47, 97], .unixSocket⟩ 3 comingUp =
      some ⟨.error (.retriesExhausted ⟨[47, 97], .unixSocket⟩ 2 (.bare .connectionRefused)),
        [.connect, .sleep (.ofMillis 100), .connect],
        ⟨-4900000000, [⟨.ofSeconds 1, .zero, false, .ok 7⟩], false, none⟩⟩ ∧
    (Dialer.dialFor Script.world ⟨Policy.standard.withMaxAttempts 3, true⟩
        ⟨[47, 97], .unixSocket⟩ 3 comingUp).map Run.result = some (.ok 7) ∧
    [.connect, .sleep (.ofMillis 100), .connect] <+:
      Dialer.trace Script.world ⟨Policy.standard.withMaxAttempts 3, true⟩
        ⟨[47, 97], .unixSocket⟩ 3 comingUp := by
  have hlax : AtLeastAsLax ((Policy.standard.withMaxAttempts 2).withDeadline (.ofSeconds 1))
      (Policy.standard.withMaxAttempts 3) := by
    refine ⟨rfl, ?_, ?_⟩
    · rintro most ⟨⟩
      exact ⟨2, rfl, by decide⟩
    · rintro late ⟨⟩
  have hback : Script.later 100000000 .zero - (Span.ofSeconds 5).toNanos = -4900000000 := by
    decide +kernel
  have hstrict : Dialer.dialFor Script.world
      ⟨(Policy.standard.withMaxAttempts 2).withDeadline (.ofSeconds 1), true⟩
      ⟨[47, 97], .unixSocket⟩ 3 comingUp =
        some ⟨.error (.retriesExhausted ⟨[47, 97], .unixSocket⟩ 2 (.bare .connectionRefused)),
          [.connect, .sleep (.ofMillis 100), .connect],
          ⟨-4900000000, [⟨.ofSeconds 1, .zero, false, .ok 7⟩], false, none⟩⟩ := by
    rw [← hback]
    rfl
  have hextends := dialFor_of_laxer hlax true Script.world ⟨[47, 97], .unixSocket⟩ comingUp
  refine ⟨hstrict, rfl, ?_⟩
  have hprefix := hextends.2.1 3 3 (Nat.le_refl 3)
  rw [hextends.1 _ 3 _ hstrict] at hprefix
  exact hprefix

end FramedIpc.Dial
