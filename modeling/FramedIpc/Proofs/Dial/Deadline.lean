import FramedIpc.Dial.Script
import FramedIpc.Proofs.Dial.Diary

/-!
# Keeping a Deadline

A policy may say how long after its start a dial may still pause. That is
decided once in every round, before the pause, from the time that the dial has
taken so far. The attempts are not its own: one may take as long as it likes,
and the clock may even be set back during it. So a dial can last longer than
its deadline, but only by its last attempt. Every pause ends before the
deadline, and so every attempt but the first begins before it.

A dial takes the time from the clock, and a clock that is set back gives it
time again. Where the clock only goes forward and a pause takes exactly its
time, the pauses of a dial together take no longer than its deadline.

The time taken is a span, and what is longer than every span is shown as the
longest. No deadline short of the longest span is taken in by that: the time
shown is past it then as well. If the deadline is the longest span itself, it
has to be said of the readings in a diary that the clock has never come further
than that. The clock of a computer cannot, but the readings of a world are any
integers.

## Main definitions

* `paused`: How long the pauses in a diary take.
* `Timely`: Whether a diary keeps a deadline.
* `OnTime`, `Rested`: What holds between two rounds.

## Theorems

* `resume_le`: A pause that a round allows ends before the deadline.
* `paused_add_le`: Together with those before it takes no longer.
* `OnTime.lap`, `Rested.lap`: A round that goes by keeps to both.
* `diary_timely`: Every dial with a deadline keeps it.
-/

namespace FramedIpc.Dial

/-- How long an event pauses the dial, in nanoseconds. -/
def Event.paused : Event → Nat
  | .connect => 0
  | .sleep pause => pause.toNanos

/-- How long the pauses in a diary take, in nanoseconds. -/
def paused : List Entry → Nat
  | [] => 0
  | entry :: diary => entry.event.paused + paused diary

/-- Whether a diary keeps a deadline, counted from `start`: no attempt but the
    first begins later, and no pause begins that would end later. -/
structure Timely (start : Int) (deadline : Span) (diary : List Entry) : Prop where
  attempts : ∀ {reading}, ⟨reading, .connect⟩ ∈ diary.tail →
    reading ≤ start + deadline.toNanos
  pauses : ∀ {reading pause}, ⟨reading, .sleep pause⟩ ∈ diary →
    reading + pause.toNanos ≤ start + deadline.toNanos

theorem paused_concat (diary : List Entry) (entry : Entry) :
    paused (diary ++ [entry]) = paused diary + entry.event.paused := by
  induction diary with
  | nil =>
      simp only [List.nil_append, paused]
      omega
  | cons first diary ih =>
      simp only [List.cons_append, paused, ih]
      omega

theorem Timely.nil (start : Int) (deadline : Span) : Timely start deadline [] where
  attempts := by
    intro reading h
    cases h
  pauses := by
    intro reading pause h
    cases h

/-- One more entry keeps the deadline if it does not come too late: an attempt
    that is not the first by its beginning, a pause by its end. -/
theorem Timely.concat {start : Int} {deadline : Span} {diary : List Entry}
    (h : Timely start deadline diary) (entry : Entry)
    (hattempt : diary ≠ [] → entry.event = .connect →
      entry.reading ≤ start + deadline.toNanos)
    (hpause : ∀ pause, entry.event = .sleep pause →
      entry.reading + pause.toNanos ≤ start + deadline.toNanos) :
    Timely start deadline (diary ++ [entry]) where
  attempts := by
    intro reading hmem
    by_cases hempty : diary = []
    · rw [hempty] at hmem
      cases hmem
    rw [List.tail_append_of_ne_nil hempty] at hmem
    rcases List.mem_append.mp hmem with hmem | hmem
    · exact h.attempts hmem
    · have hentry := List.mem_singleton.mp hmem
      rw [← hentry] at hattempt
      exact hattempt hempty rfl
  pauses := by
    intro reading pause hmem
    rcases List.mem_append.mp hmem with hmem | hmem
    · exact h.pauses hmem
    · have hentry := List.mem_singleton.mp hmem
      rw [← hentry] at hpause
      exact hpause pause rfl

section Rounds

variable {σ κ : Type} {world : World σ κ} {dialer : Dialer} {endpoint : Endpoint}
  {deadline : Span}

/-- A pause that a round allows ends before the deadline. -/
theorem resume_le {start : Int} {made : Nat} {s : σ}
    (hgoes : GoesOn world dialer endpoint start made s)
    (hdeadline : dialer.policy.deadline = some deadline)
    (hspan : deadline = .longest →
      world.now (world.connect endpoint s).2 ≤ start + Span.longest.toNanos) :
    world.now (world.connect endpoint s).2 + dialer.policy.interval.toNanos ≤
      start + deadline.toNanos := by
  have htime := hgoes.time deadline hdeadline
  rw [toNanos_elapsed] at htime
  by_cases hlongest : deadline = .longest
  · have hreading := hspan hlongest
    omega
  · -- The time that is shown is the time taken, or longer than the deadline.
    have hshort := Span.toNanos_lt_longest hlongest
    omega

/-- The pauses so far, one more included, take no longer than the deadline, if
    those before it took no longer than the dial. -/
theorem paused_add_le {start : Int} {made : Nat} {s : σ} {total : Nat}
    (hgoes : GoesOn world dialer endpoint start made s)
    (hdeadline : dialer.policy.deadline = some deadline)
    (htotal : start + total ≤ world.now (world.connect endpoint s).2)
    (hbefore : total ≤ deadline.toNanos) :
    total + dialer.policy.interval.toNanos ≤ deadline.toNanos := by
  have htime := hgoes.time deadline hdeadline
  have hlt := deadline.toNanos_lt
  rw [toNanos_elapsed, Span.toNanos_longest] at htime
  -- Where the time is shown as the longest span there is none left to pause.
  omega

/-- What holds between two rounds of a dial that keeps a deadline: it has kept
    it so far, and there is time left for another attempt to begin. -/
structure OnTime (world : World σ κ) (start : Int) (deadline : Span)
    (s : σ × List Entry) : Prop where
  timely : Timely start deadline s.2
  begins : s.2 ≠ [] → world.now s.1 ≤ start + deadline.toNanos

/-- An attempt can begin between two rounds. -/
theorem OnTime.attempt {start : Int} {s : σ × List Entry}
    (h : OnTime world start deadline s) :
    Timely start deadline (s.2 ++ [⟨world.now s.1, .connect⟩]) := by
  refine h.timely.concat _ (fun hne _ => h.begins hne) ?_
  intro pause hevent
  cases hevent

/-- A round that goes by leaves a dial on time. -/
theorem OnTime.lap {start : Int} {made : Nat} {s : σ × List Entry}
    (h : OnTime world start deadline s)
    (hgoes : GoesOn world.timed dialer endpoint start made s)
    (hdeadline : dialer.policy.deadline = some deadline)
    (hsleep : ∀ pause s, world.now (world.sleep pause s) ≤ world.now s + pause.toNanos)
    (hspan : deadline = .longest →
      world.now (world.connect endpoint s.1).2 ≤ start + Span.longest.toNanos) :
    OnTime world start deadline
      (world.timed.sleep dialer.policy.interval (world.timed.connect endpoint s).2) where
  timely := by
    have hresume := resume_le hgoes hdeadline hspan
    refine h.attempt.concat _ ?_ ?_
    · intro _ hevent
      cases hevent
    · intro pause hevent
      cases hevent
      exact hresume
  begins := by
    intro _
    have hresume := resume_le hgoes hdeadline hspan
    have hwake := hsleep dialer.policy.interval (world.connect endpoint s.1).2
    exact Int.le_trans hwake hresume

/-- What holds between two rounds where the clock only goes forward: it shows
    that the pauses took no longer than the dial, and the deadline that they
    took no longer than it. -/
structure Rested (world : World σ κ) (start : Int) (deadline : Span)
    (s : σ × List Entry) : Prop where
  shown : start + paused s.2 ≤ world.now s.1
  within : paused s.2 ≤ deadline.toNanos

theorem Rested.lap {start : Int} {made : Nat} {s : σ × List Entry}
    (h : Rested world start deadline s)
    (hgoes : GoesOn world.timed dialer endpoint start made s)
    (hdeadline : dialer.policy.deadline = some deadline)
    (hforward : ∀ s, world.now s ≤ world.now (world.connect endpoint s).2)
    (hexact : ∀ pause s, world.now (world.sleep pause s) = world.now s + pause.toNanos) :
    Rested world start deadline
      (world.timed.sleep dialer.policy.interval (world.timed.connect endpoint s).2) := by
  have hshown : start + paused s.2 ≤ world.now (world.connect endpoint s.1).2 :=
    Int.le_trans h.shown (hforward s.1)
  have hwithin := paused_add_le hgoes hdeadline hshown h.within
  -- However long the attempt took, only the pause adds to the pauses.
  have hpaused : paused
      (world.timed.sleep dialer.policy.interval (world.timed.connect endpoint s).2).2 =
        paused s.2 + dialer.policy.interval.toNanos := by
    simp only [World.timed, paused_concat, Event.paused, Nat.add_zero]
  have hwake : world.now
      (world.timed.sleep dialer.policy.interval (world.timed.connect endpoint s).2).1 =
        world.now (world.connect endpoint s.1).2 + dialer.policy.interval.toNanos :=
    hexact _ _
  refine ⟨?_, ?_⟩
  · rw [hpaused, hwake]
    omega
  · rw [hpaused]
    exact hwithin

/-- A dial with a deadline keeps it, in every world in which a pause takes no
    longer than it should, and whether or not the dial ever ends: no attempt
    but the first begins after the deadline, and no pause begins that would
    end after it. Only of the longest deadline there is does this ask that the
    clock stays within it. If besides the clock never goes back, and a pause
    takes exactly its time, the pauses together take no longer than the
    deadline. The diary of a dial that has ended tells of the events that it
    reports. -/
theorem diary_timely (world : World σ κ) (dialer : Dialer) (endpoint : Endpoint) (rounds : Nat)
    (s : σ) (hdeadline : dialer.policy.deadline = some deadline)
    (hsleep : ∀ pause s, world.now (world.sleep pause s) ≤ world.now s + pause.toNanos)
    (hclock : deadline = .longest → ∀ entry ∈ dialer.diary world endpoint rounds s,
      entry.reading ≤ world.now s + Span.longest.toNanos) :
    (∀ run, dialer.dialFor world endpoint rounds s = some run →
      run.events = (dialer.diary world endpoint rounds s).map Entry.event) ∧
    Timely (world.now s) deadline (dialer.diary world endpoint rounds s) ∧
    ((∀ s, world.now s ≤ world.now (world.connect endpoint s).2) →
      (∀ pause s, world.now (world.sleep pause s) = world.now s + pause.toNanos) →
      paused (dialer.diary world endpoint rounds s) ≤ deadline.toNanos) := by
  rcases diary_cases world dialer endpoint rounds s with
    ⟨n, last, hbefore, _, hdiary, hlast, hevents⟩
  rw [hdiary] at hclock ⊢
  refine ⟨by rw [← hdiary]; exact hevents, ?_, fun hforward hexact => ?_⟩
  · -- No entry is ever taken back, so the readings so far are some of the diary's.
    have hontime := stage_keeps (P := fun _ s' =>
        (deadline = .longest →
          ∀ entry ∈ s'.2, entry.reading ≤ world.now s + Span.longest.toNanos) →
          OnTime world (world.now s) deadline s')
      (fun _ => ⟨.nil _ _, fun hne => absurd rfl hne⟩)
      (fun _ _ hgoes ih hspan => by
        simp only [World.timed, List.mem_append, List.mem_singleton] at hspan
        exact (ih fun hlongest entry hmem => hspan hlongest entry (Or.inl (Or.inl hmem))).lap
          hgoes hdeadline hsleep fun hlongest => hspan hlongest _ (Or.inr rfl))
      hbefore fun hlongest entry hmem => hclock hlongest entry (List.mem_append_left _ hmem)
    rcases hlast with rfl | rfl
    · rw [List.append_nil]
      exact hontime.timely
    · exact hontime.attempt
  · have hrested := stage_keeps (P := fun _ s' => Rested world (world.now s) deadline s')
      ⟨Int.le_of_eq (Int.add_zero _), Nat.zero_le _⟩
      (fun _ _ hgoes ih => ih.lap hgoes hdeadline hforward hexact) hbefore
    rcases hlast with rfl | rfl
    · rw [List.append_nil]
      exact hrested.within
    · -- The last attempt is no pause.
      rw [paused_concat]
      exact hrested.within

/-- The second of three attempts takes two seconds, at the end of which the
    clock is set back by five. -/
def setBack : Script :=
  ⟨0, [⟨.zero, .zero, false, .error (.bare .notFound)⟩,
    ⟨.ofSeconds 2, .ofSeconds 5, false, .error (.bare .connectionRefused)⟩,
    ⟨.ofSeconds 4, .zero, false, .error (.bare .notFound)⟩], false, none⟩

/-- The third attempt begins before the start, and no pause follows it. -/
theorem diary_timely_setBack :
    Dialer.diary Script.world ⟨.withDeadline .standard (.ofSeconds 1), true⟩
        ⟨[47, 97], .unixSocket⟩ 4 setBack =
      [⟨0, .connect⟩, ⟨0, .sleep (.ofMillis 100)⟩, ⟨100000000, .connect⟩,
        ⟨-2900000000, .sleep (.ofMillis 100)⟩, ⟨-2800000000, .connect⟩] ∧
    Timely 0 (.ofSeconds 1) (Dialer.diary Script.world
      ⟨.withDeadline .standard (.ofSeconds 1), true⟩ ⟨[47, 97], .unixSocket⟩ 4 setBack) := by
  have hdiary : Dialer.diary Script.world ⟨.withDeadline .standard (.ofSeconds 1), true⟩
      ⟨[47, 97], .unixSocket⟩ 4 setBack =
        [⟨0, .connect⟩, ⟨0, .sleep (.ofMillis 100)⟩, ⟨100000000, .connect⟩,
          ⟨-2900000000, .sleep (.ofMillis 100)⟩, ⟨-2800000000, .connect⟩] := by
    decide +kernel
  refine ⟨hdiary, (diary_timely Script.world _ _ 4 setBack rfl ?_ ?_).2.1⟩
  · intro pause script
    exact Int.min_le_left _ _
  · intro hlongest
    cases hlongest

end Rounds

end FramedIpc.Dial
