import FramedIpc.Dial.Timeline
import FramedIpc.Proofs.Dial.Diary

/-!
# How Many Attempts a Dial Makes

A dial without limits need not end, and nothing in its loop gets smaller. It is
the policy that ends it. A budget of attempts does so by being counted against;
a deadline does so only because the pauses take time, so that with each round
one interval less is left. On a clock that is never set back and that a pause
moves by exactly its length, a round that goes by leaves at least that much
behind it, and there are no more of them than intervals in the deadline.

Either way the bound is found in one place. If the rounds that can go by are
fewer than some number, a dial makes no more attempts than that, and it ends in
as many rounds (`endsWithin_of_goesOn`).

Both bounds are exact. Where nobody ever listens and the attempts take no time,
a dial makes as many attempts as the lesser of them allows. It then reports the
limit that stopped it; if the budget is used up by the very attempt after which
no other would be in time, that is the budget.

## Main definitions

* `Policy.attemptsAllowed`, `Policy.attemptsInTime`: What each limit allows.
* `Policy.mostAttempts`: What they allow together.
* `Policy.BudgetFirst`: Whether the budget is used up no later than the time.
* `Steady`: A clock that only attempts and pauses move, and only forward.
* `EndsWithin`: Whether a dial ends, with no more than so many attempts.
* `Unavailable`: Whether nobody listens for so many rounds.

## Theorems

* `le_now_stage`: Every round takes an interval at least.
* `lt_of_goesOn_time`: A deadline bounds the rounds that go by.
* `endsWithin_of_goesOn`: A bound on them is a bound on the attempts.
* `endsWithin_of_mostAttempts`: So a dial with a limit ends.
* `goesOn_of_unavailable`: Where nobody listens, all go by that may.
* `ending_of_unavailable`: And the last one is stopped by a limit.
* `dial_bounded`: A dial with a limit ends, after exactly so many attempts.
-/

namespace FramedIpc

namespace Policy

/-- The attempts that the budget allows. The first is always made. -/
def attemptsAllowed (policy : Policy) : Option Nat :=
  policy.maxAttempts.map fun limit => max 1 limit.toNat

/-- The attempts that can be begun before the deadline if they take no time:
    one at the start, and one after every pause that ends in time. Without
    pauses there is no end to them. -/
def attemptsInTime (policy : Policy) : Option Nat :=
  policy.deadline.bind fun deadline =>
    if policy.interval.toNanos = 0 then none
    else some (deadline.toNanos / policy.interval.toNanos + 1)

/-- The attempts that both limits allow, if there is a limit. -/
def mostAttempts (policy : Policy) : Option Nat :=
  Option.merge min policy.attemptsAllowed policy.attemptsInTime

/-- Whether the budget is used up no later than the time. -/
def BudgetFirst (policy : Policy) : Prop :=
  ∃ most, policy.attemptsAllowed = some most ∧
    ∀ timely, policy.attemptsInTime = some timely → most ≤ timely

variable {policy : Policy}

theorem attemptsAllowed_eq_some_iff {most : Nat} :
    policy.attemptsAllowed = some most ↔
      ∃ limit, policy.maxAttempts = some limit ∧ max 1 limit.toNat = most := by
  rw [attemptsAllowed, Option.map_eq_some_iff]

theorem attemptsInTime_eq_some_iff {most : Nat} :
    policy.attemptsInTime = some most ↔
      ∃ deadline, policy.deadline = some deadline ∧ 0 < policy.interval.toNanos ∧
        deadline.toNanos / policy.interval.toNanos + 1 = most := by
  rw [attemptsInTime, Option.bind_eq_some_iff]
  by_cases hzero : policy.interval.toNanos = 0
  · simp only [hzero, if_true, reduceCtorEq, and_false, exists_false, Nat.lt_irrefl, false_and]
  · simp only [hzero, if_false, Option.some.injEq, Nat.pos_of_ne_zero hzero, true_and]

/-- The limits together allow what each of them allows, and no more than one of
    them does. -/
theorem of_mostAttempts {most : Nat} (h : policy.mostAttempts = some most) :
    (∀ allowed, policy.attemptsAllowed = some allowed → most ≤ allowed) ∧
      (∀ timely, policy.attemptsInTime = some timely → most ≤ timely) ∧
      (policy.attemptsAllowed = some most ∨ policy.attemptsInTime = some most) := by
  rw [mostAttempts] at h
  rcases hallowed : policy.attemptsAllowed with _ | allowed
  · rw [hallowed, Option.merge_none_left] at h
    refine ⟨?_, ?_, Or.inr h⟩
    · rintro _ ⟨⟩
    · intro timely htimely
      exact Nat.le_of_eq (Option.some.inj (h.symm.trans htimely))
  rcases htimely : policy.attemptsInTime with _ | timely
  · rw [hallowed, htimely, Option.merge_none_right] at h
    refine ⟨?_, ?_, Or.inl h⟩
    · intro allowed' hallowed'
      exact Nat.le_of_eq (Option.some.inj (h.symm.trans hallowed'))
    · rintro _ ⟨⟩
  · rw [hallowed, htimely, Option.merge_some_some, Option.some.injEq] at h
    simp only [Option.some.injEq, forall_eq']
    omega

/-- There is always a first attempt. -/
theorem pos_of_mostAttempts {most : Nat} (h : policy.mostAttempts = some most) : 0 < most := by
  rcases (of_mostAttempts h).2.2 with hallowed | htimely
  · rcases attemptsAllowed_eq_some_iff.mp hallowed with ⟨limit, _, rfl⟩
    exact Nat.le_max_left 1 _
  · rcases attemptsInTime_eq_some_iff.mp htimely with ⟨deadline, _, _, rfl⟩
    exact Nat.succ_pos _

/-- There is a limit where there is a budget, or a deadline and pauses that take
    their time. -/
theorem exists_mostAttempts (h : policy.maxAttempts ≠ none ∨
    policy.deadline ≠ none ∧ 0 < policy.interval.toNanos) :
    ∃ most, policy.mostAttempts = some most := by
  have hsome : policy.attemptsAllowed ≠ none ∨ policy.attemptsInTime ≠ none := by
    rcases h with hbudget | ⟨hdeadline, hpos⟩
    · rcases Option.ne_none_iff_exists'.mp hbudget with ⟨limit, hlimit⟩
      rw [attemptsAllowed_eq_some_iff.mpr ⟨limit, hlimit, rfl⟩]
      exact Or.inl (Option.some_ne_none _)
    · rcases Option.ne_none_iff_exists'.mp hdeadline with ⟨deadline, hdeadline⟩
      rw [attemptsInTime_eq_some_iff.mpr ⟨deadline, hdeadline, hpos, rfl⟩]
      exact Or.inr (Option.some_ne_none _)
  rw [← Option.ne_none_iff_exists', mostAttempts]
  rcases hallowed : policy.attemptsAllowed with _ | allowed
  · rw [Option.merge_none_left]
    exact hsome.resolve_left fun h' => h' hallowed
  · rcases policy.attemptsInTime with _ | timely <;> exact Option.some_ne_none _

end Policy

namespace Dial

variable {σ κ : Type}

/-- Whether a clock is moved by attempts and pauses only, never goes back, and
    goes on by exactly the length of a pause. -/
structure Steady (world : World σ κ) (endpoint : Endpoint) : Prop where
  forward : ∀ s, world.now s ≤ world.now (world.connect endpoint s).2
  exact : ∀ pause s, world.now (world.sleep pause s) = world.now s + pause.toNanos

/-- Whether a dial ends within so many rounds, and makes no more attempts than
    that in any number of them. -/
def EndsWithin (world : World σ κ) (dialer : Dialer) (endpoint : Endpoint) (most : Nat) (s : σ) :
    Prop :=
  (∃ run, dialer.dialFor world endpoint most s = some run ∧ run.events.count .connect ≤ most) ∧
    ∀ rounds, (dialer.trace world endpoint rounds s).count .connect ≤ most

/-- Whether nobody listens for so many rounds: the dial is not called off in
    them, and the attempts take no time and fail for a reason that passes. -/
structure Unavailable (world : World σ κ) (dialer : Dialer) (endpoint : Endpoint) (rounds : Nat)
    (s : σ) : Prop where
  heeded : ∀ k < rounds, ¬ CalledOff world dialer
    (stage world endpoint dialer.policy.interval k s)
  failed : ∀ k < rounds, ∃ fault,
    (world.connect endpoint (stage world endpoint dialer.policy.interval k s)).1 = .error fault ∧
      isRetryable fault = true
  instant : ∀ k < rounds,
    world.now (world.connect endpoint (stage world endpoint dialer.policy.interval k s)).2 =
      world.now (stage world endpoint dialer.policy.interval k s)

variable {world : World σ κ} {dialer : Dialer} {endpoint : Endpoint} {s : σ}

/-- Every round takes an interval at least. -/
theorem le_now_stage (hsteady : Steady world endpoint) (pause : Span) (n : Nat) (s : σ) :
    world.now s + (n * pause.toNanos : Nat) ≤ world.now (stage world endpoint pause n s) := by
  induction n with
  | zero =>
      rw [Nat.zero_mul]
      exact Int.le_of_eq (Int.add_zero _)
  | succ n ih =>
      have hforward := hsteady.forward (stage world endpoint pause n s)
      rw [stage_succ, hsteady.exact, Nat.succ_mul]
      omega

/-- A budget bounds the rounds that go by. -/
theorem lt_of_goesOn_budget {start : Int} {made most : Nat} {s' : σ}
    (h : GoesOn world dialer endpoint start made s')
    (hmost : dialer.policy.attemptsAllowed = some most) : made + 1 < most := by
  rcases Policy.attemptsAllowed_eq_some_iff.mp hmost with ⟨limit, hlimit, rfl⟩
  have hbudget := h.budget limit hlimit
  omega

/-- So does a deadline, where every pause takes its time. -/
theorem lt_of_goesOn_time (hsteady : Steady world endpoint) {made most : Nat}
    (h : GoesOn world dialer endpoint (world.now s) made
      (stage world endpoint dialer.policy.interval made s))
    (hmost : dialer.policy.attemptsInTime = some most) : made + 1 < most := by
  rcases Policy.attemptsInTime_eq_some_iff.mp hmost with ⟨deadline, hdeadline, hpos, rfl⟩
  have hstage := le_now_stage hsteady dialer.policy.interval made s
  have hforward := hsteady.forward (stage world endpoint dialer.policy.interval made s)
  have htime := h.time deadline hdeadline
  have hlongest := deadline.toNanos_lt
  rw [toNanos_elapsed, Span.toNanos_longest] at htime
  -- The pauses so far and one more end before the deadline.
  have hpauses : (made + 1) * dialer.policy.interval.toNanos ≤ deadline.toNanos := by
    rw [Nat.succ_mul]
    omega
  exact Nat.succ_lt_succ ((Nat.le_div_iff_mul_le hpos).mpr hpauses)

/-- A bound on the rounds that can go by is one on the attempts, and the dial
    ends. -/
theorem endsWithin_of_goesOn {most : Nat} (hpos : 0 < most)
    (h : ∀ made, GoesOn world dialer endpoint (world.now s) made
      (stage world endpoint dialer.policy.interval made s) → made + 1 < most) :
    EndsWithin world dialer endpoint most s := by
  have hrounds : ∀ {n}, (∀ k < n, GoesOn world dialer endpoint (world.now s) k
      (stage world endpoint dialer.policy.interval k s)) → n < most := by
    intro n hall
    cases n with
    | zero => exact hpos
    | succ n => exact h n (hall n (Nat.lt_succ_self n))
  have hcount : ∀ rounds, (dialer.trace world endpoint rounds s).count .connect ≤ most := by
    intro rounds
    rcases dialFor_cases world dialer endpoint rounds s with
      ⟨n, last, _, hbefore, hending, hdial⟩ | ⟨hall, hdial⟩
    · -- The last round makes one attempt more, or none.
      have hlast : last.events.count .connect ≤ 1 := by
        rcases hending.events_eq with ⟨_, hevents⟩ | ⟨_, hevents⟩
        · rw [hevents]
          exact Nat.zero_le 1
        · rw [hevents]
          exact Nat.le_refl 1
      have hless := hrounds hbefore
      rw [trace_of_dialFor hdial, Run.after, List.count_append, count_connect_laps]
      omega
    · have hless := hrounds hall
      rw [trace_of_none hdial, count_connect_laps]
      omega
  refine ⟨?_, hcount⟩
  rcases hdial : dialer.dialFor world endpoint most s with _ | run
  · rcases dialFor_cases world dialer endpoint most s with
      ⟨_, _, _, _, _, hdial'⟩ | ⟨hall, _⟩
    · rw [hdial'] at hdial
      cases hdial
    · exact absurd (hrounds hall) (Nat.lt_irrefl most)
  · have hbound := hcount most
    rw [trace_of_dialFor hdial] at hbound
    exact ⟨run, rfl, hbound⟩

/-- So a dial with a limit ends, whichever limit it is. -/
theorem endsWithin_of_mostAttempts (hsteady : Steady world endpoint) {most : Nat}
    (hmost : dialer.policy.mostAttempts = some most) :
    EndsWithin world dialer endpoint most s := by
  refine endsWithin_of_goesOn (Policy.pos_of_mostAttempts hmost) fun made hgoes => ?_
  rcases (Policy.of_mostAttempts hmost).2.2 with hallowed | htimely
  · exact lt_of_goesOn_budget hgoes hallowed
  · exact lt_of_goesOn_time hsteady hgoes htimely

section Unavailable

variable {most : Nat} (hsteady : Steady world endpoint)
  (hnone : Unavailable world dialer endpoint most s)
include hsteady hnone

/-- Where attempts take no time, only the pauses do. -/
theorem now_stage {n : Nat} (hn : n < most) :
    world.now (stage world endpoint dialer.policy.interval n s) =
      world.now s + (n * dialer.policy.interval.toNanos : Nat) := by
  induction n with
  | zero =>
      rw [Nat.zero_mul]
      exact (Int.add_zero _).symm
  | succ n ih =>
      have hbefore := ih (Nat.lt_of_succ_lt hn)
      rw [stage_succ, hsteady.exact, hnone.instant n (Nat.lt_of_succ_lt hn), hbefore,
        Nat.succ_mul]
      omega

/-- The time that such a dial has taken, as far as a span can show it. -/
theorem toNanos_elapsed_stage {n : Nat} (hn : n < most) :
    (elapsed (world.now s) (world.now
      (world.connect endpoint (stage world endpoint dialer.policy.interval n s)).2)).toNanos =
        min (n * dialer.policy.interval.toNanos) Span.longest.toNanos := by
  have hspent := now_stage hsteady hnone hn
  rw [toNanos_elapsed, hnone.instant n hn]
  omega

variable (hmost : dialer.policy.mostAttempts = some most)
include hmost

/-- Where nobody listens every round goes by but the last that the limits allow. -/
theorem goesOn_of_unavailable {n : Nat} (hn : n + 1 < most) :
    GoesOn world dialer endpoint (world.now s) n
      (stage world endpoint dialer.policy.interval n s) where
  heeded := hnone.heeded n (Nat.lt_of_succ_lt hn)
  failed := hnone.failed n (Nat.lt_of_succ_lt hn)
  budget := by
    intro limit hlimit
    have hallowed := (Policy.of_mostAttempts hmost).1 _
      (Policy.attemptsAllowed_eq_some_iff.mpr ⟨limit, hlimit, rfl⟩)
    omega
  time := by
    intro deadline hdeadline
    rw [toNanos_elapsed_stage hsteady hnone (Nat.lt_of_succ_lt hn)]
    by_cases hpos : 0 < dialer.policy.interval.toNanos
    · have htimely := (Policy.of_mostAttempts hmost).2.1 _
        (Policy.attemptsInTime_eq_some_iff.mpr ⟨deadline, hdeadline, hpos, rfl⟩)
      have hpauses : (n + 1) * dialer.policy.interval.toNanos ≤ deadline.toNanos :=
        (Nat.le_div_iff_mul_le hpos).mp (by omega)
      rw [Nat.succ_mul] at hpauses
      omega
    · -- Without pauses no time goes by at all.
      have hzero := Nat.eq_zero_of_not_pos hpos
      rw [hzero, Nat.mul_zero]
      omega

/-- The last of them is stopped by a limit, the budget if it is used up. -/
theorem ending_of_unavailable {n : Nat} (hn : n + 1 = most) :
    ∃ last, Ending world dialer endpoint (world.now s) n
        (stage world endpoint dialer.policy.interval n s) last ∧
      last.events = [.connect] ∧
      (dialer.policy.BudgetFirst → ∃ fault,
        last.result = .error (.retriesExhausted endpoint (tally most) fault)) ∧
      (¬ dialer.policy.BudgetFirst → ∃ time,
        time.toNanos = n * dialer.policy.interval.toNanos ∧
          last.result = .error (.deadlineElapsed endpoint time (tally most))) := by
  have hn' : n < most := Nat.lt_of_succ_le (Nat.le_of_eq hn)
  rcases Policy.of_mostAttempts hmost with ⟨hallows, htimes, hone⟩
  rcases hnone.failed n hn' with ⟨fault, hfailed, hretry⟩
  have hshown := toNanos_elapsed_stage hsteady hnone hn'
  rcases hconnect :
    world.connect endpoint (stage world endpoint dialer.policy.interval n s) with ⟨outcome, s'⟩
  rw [hconnect] at hfailed hshown
  cases hfailed
  by_cases hfirst : dialer.policy.BudgetFirst
  · rcases hfirst with ⟨allowed, hallowed, hleast⟩
    have hspent : allowed = most := by
      have hle := hallows allowed hallowed
      rcases hone with hallowed' | htimely
      · exact Option.some.inj (hallowed.symm.trans hallowed')
      · exact Nat.le_antisymm (hleast most htimely) hle
    rcases Policy.attemptsAllowed_eq_some_iff.mp hallowed with ⟨limit, hlimit, hmax⟩
    refine ⟨_, .exhausted (hnone.heeded n hn') hconnect hretry hlimit (by omega), rfl, ?_, ?_⟩
    · intro _
      rw [hn]
      exact ⟨fault, rfl⟩
    · intro hnot
      exact absurd ⟨allowed, hallowed, hleast⟩ hnot
  · have htimely : dialer.policy.attemptsInTime = some most := by
      rcases hone with hallowed | htimely
      · exact absurd ⟨most, hallowed, htimes⟩ hfirst
      · exact htimely
    have hbudget : ∀ limit, dialer.policy.maxAttempts = some limit → n + 1 < limit.toNat := by
      intro limit hlimit
      have hallowed := Policy.attemptsAllowed_eq_some_iff.mpr ⟨limit, hlimit, rfl⟩
      have hmore : most < max 1 limit.toNat := by
        refine Nat.lt_of_not_le fun hle => hfirst ⟨_, hallowed, ?_⟩
        intro timely htimely'
        exact Nat.le_trans hle (htimes timely htimely')
      omega
    rcases Policy.attemptsInTime_eq_some_iff.mp htimely with ⟨deadline, hdeadline, hpos, hmax⟩
    -- As many intervals fit the deadline as there were pauses, and no more.
    have hfit : deadline.toNanos / dialer.policy.interval.toNanos = n := by omega
    have hwithin := Nat.div_mul_le_self deadline.toNanos dialer.policy.interval.toNanos
    have hbeyond : deadline.toNanos < deadline.toNanos / dialer.policy.interval.toNanos *
        dialer.policy.interval.toNanos + dialer.policy.interval.toNanos :=
      Nat.lt_div_mul_add hpos
    have hlongest := deadline.toNanos_lt
    rw [hfit] at hwithin hbeyond
    rw [Span.toNanos_longest, Nat.min_eq_left (by omega)] at hshown
    refine ⟨_, .late (hnone.heeded n hn') hconnect hretry hbudget hdeadline
      (by rw [hshown]; exact hbeyond), rfl, ?_, ?_⟩
    · intro hfirst'
      exact absurd hfirst' hfirst
    · intro _
      rw [hn]
      exact ⟨_, hshown, rfl⟩

end Unavailable

/-- On a clock that is never set back, and that a pause moves by exactly its
    length, a dial with a limit ends. It makes no more attempts than its budget,
    and no more than one and as many as there are intervals in its deadline. If
    nobody listens, and the attempts take no time, it makes exactly as many as
    the lesser of the two, and reports the limit that stopped it: the budget if
    it is used up no later than the time, and else the deadline, with the time
    that the pauses took. -/
theorem dial_bounded (hsteady : Steady world endpoint) (dialer : Dialer) (s : σ) :
    (∀ limit, dialer.policy.maxAttempts = some limit →
      EndsWithin world dialer endpoint (max 1 limit.toNat) s) ∧
    (∀ deadline, dialer.policy.deadline = some deadline → 0 < dialer.policy.interval.toNanos →
      EndsWithin world dialer endpoint
        (deadline.toNanos / dialer.policy.interval.toNanos + 1) s) ∧
    ∀ most, dialer.policy.mostAttempts = some most → Unavailable world dialer endpoint most s →
      ∃ run, dialer.dialFor world endpoint most s = some run ∧
        run.events.count .connect = most ∧
        (dialer.policy.BudgetFirst → ∃ fault,
          run.result = .error (.retriesExhausted endpoint (tally most) fault)) ∧
        (¬ dialer.policy.BudgetFirst → ∃ time,
          time.toNanos = (most - 1) * dialer.policy.interval.toNanos ∧
            run.result = .error (.deadlineElapsed endpoint time (tally most))) := by
  refine ⟨?_, ?_, ?_⟩
  · intro limit hlimit
    have hmost := Policy.attemptsAllowed_eq_some_iff.mpr ⟨limit, hlimit, rfl⟩
    exact endsWithin_of_goesOn (Nat.le_max_left 1 _) fun made hgoes =>
      lt_of_goesOn_budget hgoes hmost
  · intro deadline hdeadline hpos
    have hmost := Policy.attemptsInTime_eq_some_iff.mpr ⟨deadline, hdeadline, hpos, rfl⟩
    exact endsWithin_of_goesOn (Nat.succ_pos _) fun made hgoes =>
      lt_of_goesOn_time hsteady hgoes hmost
  · intro most hmost hnone
    have hpos := Policy.pos_of_mostAttempts hmost
    rcases ending_of_unavailable hsteady hnone hmost (Nat.sub_add_cancel hpos) with
      ⟨last, hending, hevents, hspent, hlate⟩
    have hdial := dialFor_of_ending (Nat.sub_lt hpos Nat.one_pos)
      (fun k hk => goesOn_of_unavailable hsteady hnone hmost (by omega)) hending
    refine ⟨_, hdial, ?_, hspent, hlate⟩
    rw [Run.after, List.count_append, count_connect_laps, hevents]
    exact Nat.sub_add_cancel hpos

/-- Nobody ever listens. -/
def deserted : Timeline Nat := ⟨fun _ => .error (.bare .notFound), none⟩

/-- In a second there is time for eleven attempts, one every tenth of it. A budget
    of eleven is used up by the last of them, and one of twelve is not. -/
theorem dial_bounded_deserted :
    (∃ run, Dialer.dialFor deserted.world
        ⟨(Policy.standard.withMaxAttempts 11).withDeadline (.ofSeconds 1), true⟩
        ⟨[47, 97], .unixSocket⟩ 11 0 = some run ∧
      run.events.count .connect = 11 ∧
      ∃ fault, run.result = .error (.retriesExhausted ⟨[47, 97], .unixSocket⟩ 11 fault)) ∧
    ∃ run, Dialer.dialFor deserted.world
        ⟨(Policy.standard.withMaxAttempts 12).withDeadline (.ofSeconds 1), true⟩
        ⟨[47, 97], .unixSocket⟩ 11 0 = some run ∧
      run.events.count .connect = 11 ∧
      run.result = .error (.deadlineElapsed ⟨[47, 97], .unixSocket⟩ (.ofSeconds 1) 11) := by
  have hsteady : Steady deserted.world ⟨[47, 97], .unixSocket⟩ :=
    ⟨fun _ => Int.le_refl _, fun _ _ => Int.natCast_add _ _⟩
  have hnone : ∀ dialer, Unavailable deserted.world dialer ⟨[47, 97], .unixSocket⟩ 11 0 := by
    intro dialer
    refine ⟨?_, fun _ _ => ⟨_, rfl, rfl⟩, fun _ _ => rfl⟩
    rintro _ _ ⟨_, ⟨⟩⟩
  refine ⟨?_, ?_⟩
  · have htimely : Policy.attemptsInTime
        ((Policy.standard.withMaxAttempts 11).withDeadline (.ofSeconds 1)) = some 11 := by
      decide +kernel
    have hdial := dial_bounded hsteady
      ⟨(Policy.standard.withMaxAttempts 11).withDeadline (.ofSeconds 1), true⟩ 0
    rcases hdial.2.2 11 (by decide +kernel) (hnone _) with ⟨run, hrun, hcount, hspent, _⟩
    refine ⟨run, hrun, hcount, hspent ⟨11, by decide +kernel, ?_⟩⟩
    intro timely htimely'
    exact Nat.le_of_eq (Option.some.inj (htimely.symm.trans htimely'))
  · have hallowed : Policy.attemptsAllowed
        ((Policy.standard.withMaxAttempts 12).withDeadline (.ofSeconds 1)) = some 12 := by
      decide +kernel
    have hdial := dial_bounded hsteady
      ⟨(Policy.standard.withMaxAttempts 12).withDeadline (.ofSeconds 1), true⟩ 0
    rcases hdial.2.2 11 (by decide +kernel) (hnone _) with ⟨run, hrun, hcount, _, hlate⟩
    have hlast : ¬ Policy.BudgetFirst
        ((Policy.standard.withMaxAttempts 12).withDeadline (.ofSeconds 1)) := by
      rintro ⟨most, hmost, hleast⟩
      have hle := hleast 11 (by decide +kernel)
      have hsame := Option.some.inj (hallowed.symm.trans hmost)
      omega
    rcases hlate hlast with ⟨time, htime, hresult⟩
    have hsecond : time = .ofSeconds 1 := Span.toNanos_inj (htime.trans (by decide +kernel))
    rw [hsecond] at hresult
    exact ⟨run, hrun, hcount, hresult⟩

end Dial

end FramedIpc
