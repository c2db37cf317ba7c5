import FramedIpc.Command.Send
import FramedIpc.Proofs.Dial.Course

/-!
# What Is Refused before the Dial

What the command was given is checked before anything is dialled, and there are
six things that may be wrong with it: the name, its qualifier, the request, the
two durations and the limit of attempts; and a name that is good may still make
a path that is too long. Each has the exit code of usage, which no fault of the
system has, so the code tells the two apart.

What was not refused was understood: every setting of the dial and of the
frames comes from an option, and is the one that the option asks for.

## Main definitions

* `Refused`: What may be wrong with what was given.
* `AskedFor`: What settings have of the options that ask for them.
* `Understood`: What a request has of the options that it was made from.

## Theorems

* `requestOf_cases`: What is not understood is refused, with the code of usage.
* `not_refused`: Nothing is wrong with what was understood.
* `codeOfKind_ne_usage`: No fault of the system has that code.
* `unavailable_iff_isRetryable`: Nobody is there exactly where waiting may help.
-/

namespace FramedIpc.Command

open Payload

/-- What may be wrong with what was given. -/
inductive Refused (options : SendOptions) : Prop where
  | name {cause : Address.Error} :
      Name.of options.target.name = .error cause → Refused options
  | qualifier {name : Name} {qualifier : String} {cause : Address.Error} :
      Name.of options.target.name = .ok name → options.target.qualifier = some qualifier →
      name.qualified qualifier = .error cause → Refused options
  | request {category : Category} :
      Json.decode .anything (Text.utf8 options.json) = .error category → Refused options
  | interval {failure : Failure} :
      parseDuration options.retryInterval = .error failure → Refused options
  | attempts : options.maxAttempts = some 0 → Refused options
  | timeout {text : String} {failure : Failure} :
      options.timeout = some text → parseDuration text = .error failure → Refused options
  | path {name : Name} {cause : Address.Error} :
      options.target.channelName = .ok name → Endpoint.resolve name = .error cause →
      Refused options

/-- What settings have of the options that ask for them. -/
structure AskedFor (options : SendOptions) (config : Client.Config) : Prop where
  interval : parseDuration options.retryInterval = .ok config.retry.interval
  attempts : config.retry.maxAttempts = options.maxAttempts
  attempts_ne : options.maxAttempts ≠ some 0
  /-- A limit of time is the deadline of the dial. -/
  timeout : ∀ text, options.timeout = some text →
    ∃ limit, parseDuration text = .ok limit ∧ config.retry.deadline = some limit
  /-- And there is no other. -/
  deadline : ∀ limit, config.retry.deadline = some limit →
    ∃ text, options.timeout = some text ∧ parseDuration text = .ok limit
  maxPayload : config.frame.maxPayload = Frame.standardLimit

/-- What a request has of the options that it was made from. -/
structure Understood (options : SendOptions) (request : Request) : Prop where
  name : options.target.channelName = .ok request.name
  value : Json.decode .anything (Text.utf8 options.json) = .ok request.value
  settings : AskedFor options request.config

section Codes

theorem codeOfKind_ne_usage (kind : Fault.Kind) : Failure.codeOfKind kind ≠ .usage := by
  cases kind <;> decide

theorem codeOfKind_ne_success (kind : Fault.Kind) : Failure.codeOfKind kind ≠ .success := by
  cases kind <;> decide

theorem codeOfKind_eq_unavailable_iff (kind : Fault.Kind) :
    Failure.codeOfKind kind = .unavailable ↔ kind = .notFound ∨ kind = .connectionRefused := by
  cases kind <;> decide

/-- A fault that says that there is nobody to connect to is one that a dial
    waits for the end of. -/
theorem unavailable_iff_isRetryable (fault : Fault) :
    Failure.codeOfKind fault.kind = .unavailable ↔ Dial.isRetryable fault = true := by
  rw [codeOfKind_eq_unavailable_iff, Dial.isRetryable_iff]

theorem code_of_parseDuration {text : String} {failure : Failure}
    (h : parseDuration text = .error failure) : failure.code = .usage := by
  unfold parseDuration at h
  simp only [] at h
  split at h
  · cases h
    rfl
  split at h
  · cases h
    rfl
  · cases h
    rfl
  · cases h

end Codes

section Parts

/-! The checks one by one: what each refuses, and what it makes of the rest. -/

theorem channelName_of_bad_name {target : Target} {cause : Address.Error}
    (h : Name.of target.name = .error cause) :
    target.channelName = .error (.ofDial "invalid name" (.address cause)) := by
  rw [Target.channelName, h]
  rfl

theorem channelName_of_qualifier {target : Target} {name : Name} {qualifier : String}
    (hname : Name.of target.name = .ok name) (hqualifier : target.qualifier = some qualifier) :
    target.channelName = (name.qualified qualifier).mapError fun cause =>
      .ofDial "invalid qualifier" (.address cause) := by
  rw [Target.channelName, hname, hqualifier]
  rfl

theorem channelName_cases (target : Target) :
    (∃ cause, Name.of target.name = .error cause ∧
        target.channelName = .error (.ofDial "invalid name" (.address cause))) ∨
      (∃ name qualifier cause, Name.of target.name = .ok name ∧
        target.qualifier = some qualifier ∧ name.qualified qualifier = .error cause ∧
        target.channelName = .error (.ofDial "invalid qualifier" (.address cause))) ∨
      ∃ name, target.channelName = .ok name := by
  rcases hname : Name.of target.name with cause | name
  · exact Or.inl ⟨cause, rfl, channelName_of_bad_name hname⟩
  -- The name is good; what can still be wrong is what is put behind it.
  refine Or.inr ?_
  cases hqualifier : target.qualifier with
  | none => exact Or.inr ⟨name, by rw [Target.channelName, hname, hqualifier]; rfl⟩
  | some qualifier =>
      have hchannel := channelName_of_qualifier hname hqualifier
      rcases hwhole : name.qualified qualifier with cause | whole
      · rw [hwhole] at hchannel
        exact Or.inl ⟨name, qualifier, cause, rfl, rfl, hwhole, hchannel⟩
      · rw [hwhole] at hchannel
        exact Or.inr ⟨whole, hchannel⟩

theorem parseRequest_cases (json : String) :
    (∃ category failure, Json.decode .anything (Text.utf8 json) = .error category ∧
        parseRequest json = .error failure ∧ failure.code = .usage) ∨
      ∃ value, Json.decode .anything (Text.utf8 json) = .ok value ∧
        parseRequest json = .ok value := by
  unfold parseRequest
  rcases Json.decode .anything (Text.utf8 json) with category | value
  · exact Or.inl ⟨category, _, rfl, rfl, rfl⟩
  · exact Or.inr ⟨value, rfl, rfl⟩

theorem limitAttempts_cases (attempts : Option UInt32) (retry : Policy) :
    (attempts = some 0 ∧ ∃ failure, limitAttempts attempts retry = .error failure ∧
        failure.code = .usage) ∨
      (attempts ≠ some 0 ∧ ∃ limited, limitAttempts attempts retry = .ok limited ∧
        limited.interval = retry.interval ∧ limited.deadline = retry.deadline ∧
        limited.maxAttempts = attempts.or retry.maxAttempts) := by
  cases attempts with
  | none => exact Or.inr ⟨by decide, retry, rfl, rfl, rfl, rfl⟩
  | some attempts =>
      rw [limitAttempts]
      by_cases hzero : attempts = 0
      · rw [if_pos hzero, hzero]
        exact Or.inl ⟨rfl, _, rfl, rfl⟩
      · rw [if_neg hzero]
        refine Or.inr ⟨fun h => hzero (Option.some.inj h), _, rfl, rfl, rfl, ?_⟩
        rw [Policy.withMaxAttempts, if_neg hzero]
        rfl

theorem limitTime_cases (timeout : Option String) (config : Client.Config) :
    (∃ text failure, timeout = some text ∧ parseDuration text = .error failure ∧
        limitTime timeout config = .error failure) ∨
      (timeout = none ∧ limitTime timeout config = .ok config) ∨
      ∃ text limit limited, timeout = some text ∧ parseDuration text = .ok limit ∧
        limitTime timeout config = .ok limited ∧
        limited.retry = config.retry.withDeadline limit ∧
        limited.frame.maxPayload = config.frame.maxPayload := by
  cases timeout with
  | none => exact Or.inr (Or.inl ⟨rfl, rfl⟩)
  | some text =>
      rcases hlimit : parseDuration text with failure | limit
      · refine Or.inl ⟨text, failure, rfl, hlimit, ?_⟩
        simp only [limitTime, hlimit, Bind.bind, Except.bind]
      · refine Or.inr (Or.inr ⟨text, limit,
          (config.withRetry (config.retry.withDeadline limit)).withFrame
            { config.frame with readTimeout := some limit, writeTimeout := some limit },
          rfl, hlimit, ?_, rfl, rfl⟩)
        simp only [limitTime, hlimit, Bind.bind, Except.bind]
        rfl

theorem clientConfig_cases (options : SendOptions) :
    (∃ failure, clientConfig options = .error failure ∧ failure.code = .usage ∧
        Refused options) ∨
      ∃ config, clientConfig options = .ok config ∧ AskedFor options config := by
  unfold clientConfig
  rcases hinterval : parseDuration options.retryInterval with failure | interval
  · exact Or.inl ⟨failure, rfl, code_of_parseDuration hinterval, .interval hinterval⟩
  simp only [Bind.bind, Except.bind]
  rcases limitAttempts_cases options.maxAttempts (Policy.every interval) with
    ⟨hzero, failure, hlimited, hcode⟩ | ⟨hzero, limited, hlimited, hint, hdeadline, hattempts⟩
  · rw [hlimited]
    exact Or.inl ⟨failure, rfl, hcode, .attempts hzero⟩
  rw [hlimited]
  -- The standard policy has no limit of its own, so the option decides.
  have hattempts' : limited.maxAttempts = options.maxAttempts := by
    rw [hattempts, Policy.every, Option.or_none]
  rcases limitTime_cases options.timeout (Client.Config.standard.withRetry limited) with
    ⟨text, failure, htext, hparse, htime⟩ | ⟨hnone, htime⟩ |
      ⟨text, limit, config, htext, hparse, htime, hretry, hmax⟩
  · exact Or.inl ⟨failure, htime, code_of_parseDuration hparse, .timeout htext hparse⟩
  · refine Or.inr ⟨_, htime, ⟨?_, hattempts', hzero, fun text htext => ?_, fun limit hlimit => ?_, rfl⟩⟩
    · rw [Client.Config.withRetry, hint]
      exact hinterval
    · rw [hnone] at htext
      cases htext
    · rw [Client.Config.withRetry, hdeadline] at hlimit
      cases hlimit
  · have hdue : config.retry.deadline = some limit := by
      rw [hretry]
      rfl
    refine Or.inr ⟨config, htime,
      ⟨?_, ?_, hzero, fun text' htext' => ?_, fun limit' hlimit => ?_, hmax⟩⟩
    · rw [hretry, Policy.withDeadline, Client.Config.withRetry, hint]
      exact hinterval
    · rw [hretry]
      exact hattempts'
    · rw [htext] at htext'
      cases htext'
      exact ⟨limit, hparse, hdue⟩
    · rw [hdue] at hlimit
      cases hlimit
      exact ⟨text, htext, hparse⟩

end Parts

/-- What the options ask for is refused or understood. -/
theorem requestOf_cases (options : SendOptions) :
    (∃ failure, requestOf options = .error failure ∧ failure.code = .usage ∧ Refused options) ∨
      ∃ request, requestOf options = .ok request ∧ Understood options request := by
  unfold requestOf
  rcases channelName_cases options.target with
    ⟨cause, hname, hchannel⟩ | ⟨name, qualifier, cause, hname, hqualifier, hwhole, hchannel⟩ |
      ⟨name, hchannel⟩
  · exact Or.inl ⟨_, by rw [hchannel]; rfl, rfl, .name hname⟩
  · exact Or.inl ⟨_, by rw [hchannel]; rfl, rfl, .qualifier hname hqualifier hwhole⟩
  simp only [hchannel, Bind.bind, Except.bind]
  rcases parseRequest_cases options.json with
    ⟨category, failure, hdecode, hparse, hcode⟩ | ⟨value, hdecode, hparse⟩
  · exact Or.inl ⟨failure, by rw [hparse], hcode, .request hdecode⟩
  simp only [hparse]
  rcases clientConfig_cases options with
    ⟨failure, hconfig, hcode, hrefused⟩ | ⟨config, hconfig, hsettings⟩
  · exact Or.inl ⟨failure, by rw [hconfig], hcode, hrefused⟩
  · exact Or.inr ⟨⟨name, value, config⟩, by rw [hconfig]; rfl, ⟨hchannel, hdecode, hsettings⟩⟩

/-- Nothing is wrong with what was understood and has an address. -/
theorem not_refused {options : SendOptions} {request : Request} {endpoint : Endpoint}
    (h : Understood options request) (hresolve : Endpoint.resolve request.name = .ok endpoint) :
    ¬ Refused options := by
  intro hrefused
  have hname := h.name
  -- Each of the seven denies a field of what was understood, or the address.
  cases hrefused with
  | name hbad =>
      rw [channelName_of_bad_name hbad] at hname
      cases hname
  | qualifier hgood hqualifier hbad =>
      rw [channelName_of_qualifier hgood hqualifier, hbad] at hname
      cases hname
  | request hbad =>
      rw [h.value] at hbad
      cases hbad
  | interval hbad =>
      rw [h.settings.interval] at hbad
      cases hbad
  | attempts hzero => exact h.settings.attempts_ne hzero
  | timeout htext hbad =>
      rcases h.settings.timeout _ htext with ⟨limit, hparse, _⟩
      rw [hparse] at hbad
      cases hbad
  | path hchannel hbad =>
      rw [hname] at hchannel
      cases hchannel
      rw [hresolve] at hbad
      cases hbad

end FramedIpc.Command
