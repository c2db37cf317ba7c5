import FramedIpc.Proofs.Command.Duration
import FramedIpc.Proofs.Dial.Bounds
import FramedIpc.Socket.Pair

/-!
# What the Settings Come To

Settings are made from three options that are looked at in turn: the interval
between attempts, the limit of attempts and the limit of time. The first that is
not good is the one that is reported, and the later ones are not looked at. If all
are good there is nothing left to go wrong with them.

That is because what they are checked for is what the layers below ask for. A
socket refuses a limit of no time, and a duration is never zero. A deadline ends
a dial only if its pauses take time, and the interval is a duration as well. So
neither a hang nor a late refusal can come from an option that was let through.

## Main definitions

* `Offends`: Whether a failure is that of the first option that is not good.
* `TimeLimit`: What an option for a limit of time stands for.
* `settings`: The settings of an interval and two limits.
* `Socket.Truthful`: Whether a socket says of no limit but zero that it is zero.
* `Sound`: What settings are good for, and what options they are from.

## Theorems

* `clientConfig_eq_error_iff`: The first option that is not good is reported.
* `clientConfig_eq_ok_iff`: If all are good, they are what is set.
* `configure_ne_zeroTimeout`: No limit that is positive is refused for being zero.
* `settings_exactly`: Settings are sound, or say which option is not good.
-/

namespace FramedIpc

/-- Whether a socket says that a limit is zero only of one that is. -/
structure Socket.Truthful {σ : Type} (socket : Socket σ) : Prop where
  reads : ∀ limit s, (socket.limitReads limit s).1 = .error .zeroTimeout →
    limit = some Span.zero
  writes : ∀ limit s, (socket.limitWrites limit s).1 = .error .zeroTimeout →
    limit = some Span.zero

theorem checkLimit_eq_error_iff {limit : Option Span} {fault : Fault} :
    checkLimit limit = .error fault ↔ limit = some Span.zero ∧ fault = .zeroTimeout := by
  cases limit with
  | none => simp only [checkLimit, reduceCtorEq, false_and]
  | some limit =>
      by_cases hzero : limit = Span.zero
      · simp only [checkLimit, hzero, if_true, Except.error.injEq, true_and]
        exact eq_comm
      · simp only [checkLimit, hzero, if_false, reduceCtorEq, Option.some.injEq, false_and]

/-- The sockets of a pair look at the limit and at nothing else. -/
theorem Pair.truthful_socket : Pair.socket.Truthful :=
  ⟨fun _ _ h => (checkLimit_eq_error_iff.mp h).1, fun _ _ h => (checkLimit_eq_error_iff.mp h).1⟩

/-- No limit that is positive is refused for being zero. -/
theorem Socket.configure_ne_zeroTimeout {σ : Type} {socket : Socket σ} (h : socket.Truthful)
    {config : Frame.Config} (hread : ∀ limit ∈ config.readTimeout, 0 < limit.toNanos)
    (hwrite : ∀ limit ∈ config.writeTimeout, 0 < limit.toNanos) (s : σ) :
    (socket.configure config s).1 ≠ .error .zeroTimeout := by
  intro hrefused
  have hzero : ¬ 0 < Span.zero.toNanos := by decide
  unfold configure at hrefused
  rcases hreads : socket.limitReads config.readTimeout s with ⟨_ | ⟨⟩, s'⟩
  · simp only [hreads] at hrefused
    exact hzero (hread _ (h.reads _ s (by rw [hreads, hrefused])))
  · simp only [hreads] at hrefused
    exact hzero (hwrite _ (h.writes _ s' hrefused))

namespace Command

/-- Whether a failure is that of the first option that is not good. -/
inductive Offends (options : SendOptions) : Failure → Prop where
  | interval {failure : Failure} :
      parseDuration options.retryInterval = .error failure → Offends options failure
  | attempts {interval : Span} :
      parseDuration options.retryInterval = .ok interval → options.maxAttempts = some 0 →
      Offends options ⟨.usage, "--max-attempts must be at least 1"⟩
  | timeout {interval : Span} {text : String} {failure : Failure} :
      parseDuration options.retryInterval = .ok interval → options.maxAttempts ≠ some 0 →
      options.timeout = some text → parseDuration text = .error failure →
      Offends options failure

/-- What an option for a limit of time stands for. -/
inductive TimeLimit : Option String → Option Span → Prop where
  | absent : TimeLimit none none
  | given {text : String} {limit : Span} :
      parseDuration text = .ok limit → TimeLimit (some text) (some limit)

/-- The settings of an interval, a limit of attempts and one of time. The limit
    of time is one for the dial and for each read and write. -/
def settings (interval : Span) (attempts : Option UInt32) (limit : Option Span) :
    Client.Config :=
  ⟨⟨interval, attempts, limit⟩, ⟨Frame.standardLimit, limit, limit⟩⟩

variable {options : SendOptions} {config : Client.Config} {failure : Failure}

section Checks

theorem limitAttempts_every {attempts : Option UInt32} (interval : Span) (h : attempts ≠ some 0) :
    limitAttempts attempts (Policy.every interval) = .ok ⟨interval, attempts, none⟩ := by
  cases attempts with
  | none => rfl
  | some attempts =>
      have hpos : attempts ≠ 0 := fun hzero => h (congrArg some hzero)
      rw [limitAttempts, if_neg hpos, Policy.withMaxAttempts, if_neg hpos]
      rfl

theorem limitTime_of_timeLimit {timeout : Option String} {limit : Option Span}
    (h : TimeLimit timeout limit) (interval : Span) (attempts : Option UInt32) :
    limitTime timeout (Client.Config.standard.withRetry ⟨interval, attempts, none⟩) =
      .ok (settings interval attempts limit) := by
  cases h with
  | absent => rfl
  | given hparsed =>
      simp only [limitTime, hparsed, Bind.bind, Except.bind]
      rfl

theorem clientConfig_of_timeLimit {interval : Span} {limit : Option Span}
    (hinterval : parseDuration options.retryInterval = .ok interval)
    (hattempts : options.maxAttempts ≠ some 0) (hlimit : TimeLimit options.timeout limit) :
    clientConfig options = .ok (settings interval options.maxAttempts limit) := by
  simp only [clientConfig, hinterval, limitAttempts_every interval hattempts, Bind.bind,
    Except.bind]
  exact limitTime_of_timeLimit hlimit interval options.maxAttempts

theorem clientConfig_of_offends (h : Offends options failure) :
    clientConfig options = .error failure := by
  cases h with
  | interval hbad => simp only [clientConfig, hbad, Bind.bind, Except.bind]
  | attempts hinterval hzero =>
      simp only [clientConfig, hinterval, hzero, Bind.bind, Except.bind]
      rfl
  | timeout hinterval hattempts htext hbad =>
      simp only [clientConfig, hinterval, limitAttempts_every _ hattempts, htext, limitTime, hbad,
        Bind.bind, Except.bind]

/-- An option is not good, or all of them are. -/
theorem offends_or_timeLimit (options : SendOptions) :
    (∃ failure, Offends options failure) ∨
      ∃ interval limit, parseDuration options.retryInterval = .ok interval ∧
        options.maxAttempts ≠ some 0 ∧ TimeLimit options.timeout limit := by
  rcases hinterval : parseDuration options.retryInterval with failure | interval
  · exact Or.inl ⟨failure, .interval hinterval⟩
  by_cases hattempts : options.maxAttempts = some 0
  · exact Or.inl ⟨_, .attempts hinterval hattempts⟩
  rcases htimeout : options.timeout with _ | text
  · exact Or.inr ⟨interval, none, rfl, hattempts, .absent⟩
  rcases hparsed : parseDuration text with failure | limit
  · exact Or.inl ⟨failure, .timeout hinterval hattempts htimeout hparsed⟩
  · exact Or.inr ⟨interval, some limit, rfl, hattempts, .given hparsed⟩

end Checks

/-- The first option that is not good is reported. -/
theorem clientConfig_eq_error_iff : clientConfig options = .error failure ↔
    Offends options failure := by
  refine ⟨fun h => ?_, clientConfig_of_offends⟩
  rcases offends_or_timeLimit options with
    ⟨failure', hoffends⟩ | ⟨interval, limit, hinterval, hattempts, hlimit⟩
  · rw [clientConfig_of_offends hoffends] at h
    cases h
    exact hoffends
  · rw [clientConfig_of_timeLimit hinterval hattempts hlimit] at h
    cases h

/-- If all of them are good, they are what is set. -/
theorem clientConfig_eq_ok_iff : clientConfig options = .ok config ↔
    ∃ interval limit, parseDuration options.retryInterval = .ok interval ∧
      options.maxAttempts ≠ some 0 ∧ TimeLimit options.timeout limit ∧
      config = settings interval options.maxAttempts limit := by
  constructor
  · intro h
    rcases offends_or_timeLimit options with
      ⟨failure, hoffends⟩ | ⟨interval, limit, hinterval, hattempts, hlimit⟩
    · rw [clientConfig_of_offends hoffends] at h
      cases h
    · rw [clientConfig_of_timeLimit hinterval hattempts hlimit] at h
      cases h
      exact ⟨interval, limit, hinterval, hattempts, hlimit, rfl⟩
  · rintro ⟨interval, limit, hinterval, hattempts, hlimit, rfl⟩
    exact clientConfig_of_timeLimit hinterval hattempts hlimit

theorem Offends.code_eq (h : Offends options failure) : failure.code = .usage := by
  cases h with
  | interval hbad => exact code_of_parseDuration hbad
  | attempts _ _ => rfl
  | timeout _ _ _ hbad => exact code_of_parseDuration hbad

theorem TimeLimit.pos {timeout : Option String} {limit : Option Span}
    (h : TimeLimit timeout limit) : ∀ span ∈ limit, 0 < span.toNanos := by
  cases h with
  | absent => nofun
  | given hparsed =>
      rintro _ ⟨⟩
      exact toNanos_pos_of_parseDuration hparsed

theorem TimeLimit.eq_none_iff {timeout : Option String} {limit : Option Span}
    (h : TimeLimit timeout limit) : limit = none ↔ timeout = none := by
  cases h <;> simp only [reduceCtorEq]

theorem TimeLimit.exists_ok {timeout : Option String} {limit : Option Span} {text : String}
    (h : TimeLimit timeout limit) (htext : timeout = some text) :
    ∃ span, parseDuration text = .ok span := by
  cases h with
  | absent => cases htext
  | given hparsed =>
      cases htext
      exact ⟨_, hparsed⟩

theorem exists_timeLimit {timeout : Option String}
    (h : ∀ text, timeout = some text → ∃ limit, parseDuration text = .ok limit) :
    ∃ limit, TimeLimit timeout limit := by
  cases timeout with
  | none => exact ⟨none, .absent⟩
  | some text =>
      rcases h text rfl with ⟨limit, hparsed⟩
      exact ⟨some limit, .given hparsed⟩

/-- What settings are good for, and what options they are from. -/
structure Sound (options : SendOptions) (config : Client.Config) : Prop where
  interval : parseDuration options.retryInterval = .ok config.retry.interval
  interval_pos : 0 < config.retry.interval.toNanos
  attempts : config.retry.maxAttempts = options.maxAttempts
  /-- One limit of time, or none, stands for all. -/
  limit : TimeLimit options.timeout config.retry.deadline
  limit_pos : ∀ limit ∈ config.retry.deadline, 0 < limit.toNanos
  frame : config.frame =
    ⟨Frame.standardLimit, config.retry.deadline, config.retry.deadline⟩
  /-- No socket refuses a limit of no time. -/
  unrefused : ∀ (σ : Type) (socket : Socket σ), socket.Truthful →
    ∀ s, (socket.configure config.frame s).1 ≠ .error .zeroTimeout
  /-- And a dial with a limit ends. -/
  ends : options.timeout ≠ none ∨ options.maxAttempts ≠ none →
    ∃ most, config.retry.mostAttempts = some most ∧
      ∀ (σ κ : Type) (world : Dial.World σ κ) (endpoint : Endpoint),
        Dial.Steady world endpoint → ∀ (heedsCancel : Bool) (s : σ),
          Dial.EndsWithin world ⟨config.retry, heedsCancel⟩ endpoint most s

theorem sound_settings {interval : Span} {limit : Option Span}
    (hinterval : parseDuration options.retryInterval = .ok interval)
    (hlimit : TimeLimit options.timeout limit) :
    Sound options (settings interval options.maxAttempts limit) := by
  have hpos := toNanos_pos_of_parseDuration hinterval
  refine ⟨hinterval, hpos, rfl, hlimit, hlimit.pos, rfl, ?_, ?_⟩
  · intro σ socket htruthful s
    exact Socket.configure_ne_zeroTimeout htruthful hlimit.pos hlimit.pos s
  · intro hgiven
    have hlimited : options.maxAttempts ≠ none ∨ limit ≠ none ∧ 0 < interval.toNanos := by
      rcases hgiven with htimeout | hattempts
      · exact Or.inr ⟨fun hnone => htimeout (hlimit.eq_none_iff.mp hnone), hpos⟩
      · exact Or.inl hattempts
    rcases @Policy.exists_mostAttempts ⟨interval, options.maxAttempts, limit⟩ hlimited with
      ⟨most, hmost⟩
    refine ⟨most, hmost, ?_⟩
    intro σ κ world endpoint hsteady heedsCancel s
    exact Dial.endsWithin_of_mostAttempts hsteady hmost

/-- There are settings exactly if the interval is a duration, the limit of time is
    one or is absent, and the limit of attempts allows one or is absent; and then
    they are sound. Otherwise the first of the interval, the attempts and the time
    that is not good is reported, with the exit code of usage. -/
theorem settings_exactly (options : SendOptions) :
    ((∃ config, clientConfig options = .ok config) ↔
      (∃ interval, parseDuration options.retryInterval = .ok interval) ∧
        (∀ text, options.timeout = some text → ∃ limit, parseDuration text = .ok limit) ∧
          ∀ attempts, options.maxAttempts = some attempts → 1 ≤ attempts.toNat) ∧
    (∀ failure, clientConfig options = .error failure ↔ Offends options failure) ∧
    (∀ failure, clientConfig options = .error failure → failure.code.number = 64) ∧
    ∀ config, clientConfig options = .ok config → Sound options config := by
  have hallows : (∀ attempts, options.maxAttempts = some attempts → 1 ≤ attempts.toNat) ↔
      options.maxAttempts ≠ some 0 := by
    constructor
    · intro h hzero
      exact absurd (h 0 hzero) (by decide)
    · intro h attempts hattempts
      refine Nat.pos_of_ne_zero fun hzero => h ?_
      rw [hattempts, UInt32.toNat_inj.mp (hzero.trans UInt32.toNat_zero.symm)]
  refine ⟨?_, fun failure => clientConfig_eq_error_iff, ?_, ?_⟩
  · rw [hallows]
    constructor
    · rintro ⟨config, hconfig⟩
      rcases clientConfig_eq_ok_iff.mp hconfig with
        ⟨interval, limit, hinterval, hattempts, hlimit, _⟩
      exact ⟨⟨interval, hinterval⟩, fun text => hlimit.exists_ok, hattempts⟩
    · rintro ⟨⟨interval, hinterval⟩, htimeout, hattempts⟩
      rcases exists_timeLimit htimeout with ⟨limit, hlimit⟩
      exact ⟨_, clientConfig_of_timeLimit hinterval hattempts hlimit⟩
  · intro failure hfailure
    rw [(clientConfig_eq_error_iff.mp hfailure).code_eq]
    rfl
  · intro config hconfig
    rcases clientConfig_eq_ok_iff.mp hconfig with ⟨interval, limit, hinterval, _, hlimit, rfl⟩
    exact sound_settings hinterval hlimit

/-- A pause of a quarter of a second, and two seconds for everything. -/
def unhurried : SendOptions := ⟨⟨"a", none⟩, "null", "250ms", none, some " +2 "⟩

/-- Such a dial makes no more than nine attempts, though nobody ever listens, and
    the socket that it is for takes the limit of two seconds. -/
theorem settings_exactly_unhurried :
    clientConfig unhurried = .ok (settings (.ofMillis 250) none (some (.ofSeconds 2))) ∧
    (∀ pair, (Pair.socket.configure
      (settings (.ofMillis 250) none (some (.ofSeconds 2))).frame pair).1 ≠ .error .zeroTimeout) ∧
    Dial.EndsWithin Dial.deserted.world
      ⟨(settings (.ofMillis 250) none (some (.ofSeconds 2))).retry, true⟩
      ⟨[47, 97], .unixSocket⟩ 9 0 := by
  have hparsed : clientConfig unhurried =
      .ok (settings (.ofMillis 250) none (some (.ofSeconds 2))) := by
    decide +kernel
  have hsound := (settings_exactly unhurried).2.2.2 _ hparsed
  refine ⟨hparsed, fun pair => hsound.unrefused _ _ Pair.truthful_socket pair, ?_⟩
  rcases hsound.ends (Or.inl (by decide)) with ⟨most, hmost, hends⟩
  have hnine : (settings (.ofMillis 250) none (some (.ofSeconds 2))).retry.mostAttempts =
      some 9 := by
    decide +kernel
  rw [hnine] at hmost
  cases hmost
  exact hends _ _ _ _ ⟨fun _ => Int.le_refl _, fun _ _ => Int.natCast_add _ _⟩ true 0

end Command

end FramedIpc
