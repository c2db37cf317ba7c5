import FramedIpc.Proofs.Command.Fate
import FramedIpc.Proofs.Frame.Exchange
import FramedIpc.Stream.Script

/-!
# What an Exit Code Tells

A script looks at the exit code and, if that is zero, at the standard output.
Both are told here from what was done: from the record of the dial, and from the
bytes that went over the socket. Neither the file system nor the server is known,
so the dial may be refused, kept waiting or let in, and the server may answer
anything, or nothing, or go away.

The code is zero exactly if one whole request went out and one whole reply came
back of which JSON makes a response, and then the output is that response. It is
the code of usage exactly if no attempt to connect was made. In between lies a
table: what a dial that failed comes to (`Undialled`) and what a talk over an
open socket comes to (`Spoken`).

## Main definitions

* `Exchanged`: Whether whole frames went both ways, and what came back.
* `Printed`: How a response is shown.
* `Undialled`: The code of a dial that failed.
* `Spoken`: The code of a talk, by what moved.
* `Told`: What the end of an invocation tells.

## Theorems

* `undialled_of_verdict`: The code of a dial is told from its record.
* `spoken_of_talk`: The code of a talk is told from the bytes.
* `told_of_fate`: Every fate of a request is told.
* `told_of_run`: What every invocation tells that comes to an end.
-/

namespace FramedIpc.Command

open FramedIpc.Client (Reply Talk)
open FramedIpc.Dial (Deed Verdict attemptsMade)
open FramedIpc.Frame (Fits Reading Writing framed)
open Payload

variable {σ : Type}

/-- Whether one whole request has gone out, the JSON of the value that was
    given, and one whole reply within the limit has come back, of which JSON
    makes the response. -/
structure Exchanged (options : SendOptions) (ledger : Ledger) (response : Datum) : Prop where
  request : ∃ value payload, Json.decode .anything (Text.utf8 options.json) = .ok value ∧
    Json.encode value = .ok payload ∧ Fits Frame.standardLimit payload ∧
    ledger.written = framed payload
  reply : ∃ payload, Fits Frame.standardLimit payload ∧ ledger.taken = framed payload ∧
    Json.decode .anything payload = .ok response

/-- The output that shows a response. -/
def Printed (display : Display) (endpoint : Endpoint) (response : Datum) (spent : Span)
    (output : String) : Prop :=
  match display with
  | .json => ∃ text, Json.printed .line response = .ok text ∧ output = line (String.ofList text)
  | .table => ∃ text, Json.printed .line response = .ok text ∧
      output = line (Text.Table.text ⟨["ENDPOINT", "ELAPSED", "RESPONSE"],
        [[endpoint.text, toString spent.millis ++ "ms", String.ofList text]]⟩)
  | .pretty => ∃ text, Json.printed (.indented 0) response = .ok text ∧
      output = line (String.ofList text)

/-- The code of a dial that took the time `spent`, made so many attempts and
    failed, where `fault` is how the last of them failed. -/
structure Undialled (options : SendOptions) (spent : Span) (attempts : Nat) (fault : Fault)
    (code : ExitCode) : Prop where
  /-- A failure that waiting does not mend stands for itself. -/
  refused : Dial.isRetryable fault = false → code = Failure.codeOfKind fault.kind
  /-- The code that nobody is there means that the attempts ran out. -/
  exhausted_iff : code.number = 3 ↔ Dial.isRetryable fault = true ∧
    ∃ limit, options.maxAttempts = some limit ∧ attempts = limit.toNat
  /-- If they did not, the next pause would have ended too late. -/
  late : Dial.isRetryable fault = true → code.number ≠ 3 → code.number = 124 ∧
    ∃ text limit interval, options.timeout = some text ∧ parseDuration text = .ok limit ∧
      parseDuration options.retryInterval = .ok interval ∧
      limit.toNanos < spent.toNanos + interval.toNanos

/-- The ways that things can go once there is a connection, with the code of
    each. Where a call on the socket failed, the code is that of its fault. -/
inductive Spoken (host : Host σ) (config : Frame.Config) (payload : Bytes) (ledger : Ledger) :
    ExitCode → Prop where
  /-- The socket did not take the settings. -/
  | unset {s : σ} {fault : Fault} :
      (host.socket.configure config s).1 = .error fault → ledger = .blank →
      Spoken host config payload ledger (Failure.codeOfKind fault.kind)
  /-- The request is too long for a frame. -/
  | overlong :
      ¬ Fits config.maxPayload payload → ledger.written = [] → ledger.taken = [] →
      Spoken host config payload ledger .dataInvalid
  | cutOff {s s' : (σ × List (Deed Unit)) × Ledger} {fault : Fault} :
      Writing host.recorded.socket.stream config.maxPayload payload s (.error (.io fault)) s' →
      ledger.written <+: framed payload → ledger.taken = [] →
      Spoken host config payload ledger (Failure.codeOfKind fault.kind)
  /-- The server took a part of the request and no more. -/
  | stopped {s s' : (σ × List (Deed Unit)) × Ledger} :
      Writing host.recorded.socket.stream config.maxPayload payload s (.error .connectionClosed)
        s' →
      ledger.written <+: framed payload → ledger.taken = [] →
      Spoken host config payload ledger .failure
  /-- The server left without a reply. -/
  | missing :
      ledger.written = framed payload → ledger.taken = [] →
      Spoken host config payload ledger .failure
  | broken {s s' : (σ × List (Deed Unit)) × Ledger} {fault : Fault} :
      ledger.written = framed payload →
      Reading host.recorded.socket.stream config.maxPayload s (.error (.io fault)) s' →
      (∀ found, Frame.take config.maxPayload ledger.taken ≠ .ok (some found)) →
      Spoken host config payload ledger (Failure.codeOfKind fault.kind)
  /-- The reply ends before its frame does. -/
  | truncated :
      ledger.written = framed payload → ledger.taken ≠ [] →
      Frame.take config.maxPayload ledger.taken = .ok none →
      Spoken host config payload ledger .dataInvalid
  /-- The reply promises to be longer than the limit. -/
  | oversize {header : Header} :
      ledger.written = framed payload → ledger.taken = header.bytes →
      config.maxPayload < header.length → Spoken host config payload ledger .dataInvalid
  | undecodable {reply : Bytes} {category : Category} :
      ledger.written = framed payload → Fits config.maxPayload reply →
      ledger.taken = framed reply → Json.decode .anything reply = .error category →
      Spoken host config payload ledger .dataInvalid
  | answered {reply : Bytes} {response : Datum} :
      ledger.written = framed payload → Fits config.maxPayload reply →
      ledger.taken = framed reply → Json.decode .anything reply = .ok response →
      Spoken host config payload ledger .success

/-- What the end of an invocation tells that took the time `spent`. -/
structure Told (host : Host σ) (options : SendOptions) (display : Display) (spent : Span)
    (deeds : List (Deed Unit)) (ledger : Ledger) (outcome : Outcome) : Prop where
  success_iff : outcome.code.number = 0 ↔ ∃ response, Exchanged options ledger response
  shown : ∀ {response}, Exchanged options ledger response → ∃ name endpoint,
    options.target.channelName = .ok name ∧ Endpoint.resolve name = .ok endpoint ∧
    Printed display endpoint response spent outcome.output ∧ outcome.output ≠ ""
  silent : outcome.code.number ≠ 0 → outcome.output = ""
  usage_iff : outcome.code.number = 64 ↔ attemptsMade deeds = 0
  refused_iff : attemptsMade deeds = 0 ↔ Refused options
  /-- Where an attempt was made, the last deed is one, and it failed or did not. -/
  attempted : attemptsMade deeds ≠ 0 → ∃ before last, deeds = before ++ [.attempt last]
  undialled : ∀ {before fault}, deeds = before ++ [.attempt (.error fault)] →
    ledger = .blank ∧ Undialled options spent (attemptsMade deeds) fault outcome.code
  connected : ∀ {before}, deeds = before ++ [.attempt (.ok ())] → ∃ request payload,
    Understood options request ∧ request.config.frame.maxPayload = Frame.standardLimit ∧
    Json.encode request.value = .ok payload ∧
    Spoken host request.config.frame payload ledger outcome.code

section Codes

theorem number_eq_iff (code expected : ExitCode) :
    code.number = expected.number ↔ code = expected := by
  cases code <;> cases expected <;> decide

theorem number_eq_zero_iff (code : ExitCode) : code.number = 0 ↔ code = .success :=
  number_eq_iff code .success

theorem number_eq_three_iff (code : ExitCode) : code.number = 3 ↔ code = .unavailable :=
  number_eq_iff code .unavailable

theorem number_eq_sixtyFour_iff (code : ExitCode) : code.number = 64 ↔ code = .usage :=
  number_eq_iff code .usage

theorem code_ofDial_ne_success (context : String) (error : Dial.Error) :
    (Failure.ofDial context error).code ≠ .success := by
  cases error with
  | connect endpoint fault => exact codeOfKind_ne_success fault.kind
  | stream fault => exact codeOfKind_ne_success fault.kind
  | address cause => exact ExitCode.noConfusion
  | deadlineElapsed endpoint elapsed attempts => exact ExitCode.noConfusion
  | retriesExhausted endpoint attempts fault => exact ExitCode.noConfusion
  | cancelled endpoint attempts => exact ExitCode.noConfusion

theorem code_ofClient_ne_success (context : String) (error : Client.Error) :
    (Failure.ofClient context error).code ≠ .success := by
  cases error with
  | connect cause => exact code_ofDial_ne_success context cause
  | transport fault => exact codeOfKind_ne_success fault.kind
  | disconnected => exact ExitCode.noConfusion
  | truncatedFrame expected received => exact ExitCode.noConfusion
  | frameTooLarge size max => exact ExitCode.noConfusion
  | codec cause => exact ExitCode.noConfusion
  | responsePending => exact ExitCode.noConfusion
  | closed => exact ExitCode.noConfusion

/-- No talk ends with the code of usage. -/
theorem Spoken.ne_usage {host : Host σ} {config : Frame.Config} {payload : Bytes}
    {ledger : Ledger} {code : ExitCode} (h : Spoken host config payload ledger code) :
    code ≠ .usage := by
  cases h with
  | unset _ _ => exact codeOfKind_ne_usage _
  | cutOff _ _ _ => exact codeOfKind_ne_usage _
  | broken _ _ _ => exact codeOfKind_ne_usage _
  | overlong _ _ _ => exact ExitCode.noConfusion
  | stopped _ _ _ => exact ExitCode.noConfusion
  | missing _ _ => exact ExitCode.noConfusion
  | truncated _ _ _ => exact ExitCode.noConfusion
  | oversize _ _ _ => exact ExitCode.noConfusion
  | undecodable _ _ _ _ => exact ExitCode.noConfusion
  | answered _ _ _ _ => exact ExitCode.noConfusion

end Codes

section Dialling

variable {options : SendOptions} {request : Request} {endpoint : Endpoint} {spent : Span}
  {deeds before : List (Deed Unit)} {cause : Dial.Error} {fault : Fault}

theorem eq_of_concat_eq {α : Type} {before before' : List α} {a a' : α}
    (h : before ++ [a] = before' ++ [a']) : a = a' :=
  List.singleton_inj.mp (List.append_inj' h rfl).2

/-- A dial that failed made an attempt, and the last one failed. -/
theorem exists_last_of_verdict
    (h : Verdict request.config.retry endpoint spent deeds (.error cause : Except Dial.Error Unit)) :
    ∃ before fault, deeds = before ++ [.attempt (.error fault)] := by
  cases h with
  | refused hrecord _ => exact ⟨_, _, hrecord⟩
  | exhausted hrecord _ _ _ => exact ⟨_, _, hrecord⟩
  | late hrecord _ _ _ _ => exact ⟨_, _, hrecord⟩

/-- The code of a dial that failed is told from its record. -/
theorem undialled_of_verdict (hunderstood : Understood options request)
    (h : Verdict request.config.retry endpoint spent deeds (.error cause : Except Dial.Error Unit))
    (hlast : deeds = before ++ [.attempt (.error fault)]) (context : String) :
    Undialled options spent (attemptsMade deeds) fault
      (Failure.ofClient context (.connect cause)).code := by
  have hattempts := hunderstood.settings.attempts
  -- The fault that the verdict speaks of is the one in the last deed.
  have hsame {before' : List (Deed Unit)} {fault' : Fault}
      (hrecord : deeds = before' ++ [.attempt (.error fault')]) : fault' = fault := by
    rw [hrecord] at hlast
    cases eq_of_concat_eq hlast
    rfl
  cases h with
  | refused hrecord hretry =>
      cases hsame hrecord
      refine ⟨fun _ => rfl, ?_, fun hretry' => ?_⟩
      · rw [hretry, number_eq_three_iff]
        simp only [Failure.ofClient, Failure.ofDial, Failure.ofFault, unavailable_iff_isRetryable,
          hretry, Bool.false_eq_true, false_and]
      · rw [hretry] at hretry'
        cases hretry'
  | exhausted hrecord hretry hlimit hmade =>
      cases hsame hrecord
      rw [hattempts] at hlimit
      refine ⟨fun hretry' => ?_, iff_of_true rfl ⟨hretry, _, hlimit, ?_⟩, fun _ hcode => ?_⟩
      · rw [hretry] at hretry'
        cases hretry'
      · rw [hmade]
        -- A limit of zero would count as one, but the command refuses it.
        refine Nat.max_eq_right (Nat.one_le_iff_ne_zero.mpr fun hzero => ?_)
        have hnone : _ = (0 : UInt32) := UInt32.toNat_inj.mp hzero
        rw [hnone] at hlimit
        exact hunderstood.settings.attempts_ne hlimit
      · exact absurd rfl hcode
  | late hrecord hretry hbudget hdeadline hlate =>
      cases hsame hrecord
      refine ⟨fun hretry' => ?_, iff_of_false (show ¬ 124 = 3 by decide) ?_, fun _ _ => ⟨rfl, ?_⟩⟩
      · rw [hretry] at hretry'
        cases hretry'
      · rintro ⟨_, limit, hlimit, hmade⟩
        rw [← hattempts] at hlimit
        exact Nat.ne_of_lt (hbudget limit hlimit) hmade
      · rcases hunderstood.settings.deadline _ hdeadline with ⟨text, htext, hparse⟩
        exact ⟨text, _, _, htext, hparse, hunderstood.settings.interval, hlate⟩

theorem Undialled.ne_usage {attempts : Nat} {code : ExitCode}
    (h : Undialled options spent attempts fault code) : code ≠ .usage := by
  intro hcode
  cases hretry : Dial.isRetryable fault with
  | false => exact codeOfKind_ne_usage fault.kind ((h.refused hretry).symm.trans hcode)
  | true =>
      -- A fault that is waited out ends in one of two codes, neither of them this.
      have hlate := h.late hretry (by rw [hcode]; decide)
      rw [hcode] at hlate
      exact absurd hlate.1 (by decide)

end Dialling

section Speaking

variable {host : Host σ} {request : Request} {payload : Bytes}
  {s : (σ × List (Deed Unit)) × Ledger} {ledger : Ledger} {answer : Except Client.Error Datum}

theorem decode_codec_iff {bs : Bytes} {value : Datum} :
    codec.decode bs = .ok value ↔ Json.decode .anything bs = .ok value := by
  simp only [codec, Format.codec, Format.decode]
  rcases Json.decode .anything bs with category | found
  · constructor
    · rintro ⟨⟩
    · rintro ⟨⟩
  · constructor
    · rintro ⟨⟩
      rfl
    · rintro ⟨⟩
      rfl

theorem exists_category_of_decode {bs : Bytes} {cause : Payload.Error}
    (h : codec.decode bs = .error cause) :
    ∃ category, Json.decode .anything bs = .error category := by
  rcases hdecode : Json.decode .anything bs with category | value
  · exact ⟨category, rfl⟩
  · rw [decode_codec_iff.mpr hdecode] at h
    cases h

/-- What comes of a talk, as an exit code. -/
def codeOf : Except Client.Error Datum → ExitCode
  | .ok _ => .success
  | .error error => (Failure.ofClient "request failed" error).code

/-- The code of a talk is told from the bytes that moved and the call that
    failed. -/
theorem spoken_of_talk
    (h : Talk (host.recorded.client codec request.config) payload s ledger.written ledger.taken
      answer) : Spoken host request.config.frame payload ledger (codeOf answer) := by
  generalize hwritten : ledger.written = written at h
  generalize htaken : ledger.taken = taken at h
  cases h with
  | overlong hfit => exact .overlong hfit hwritten htaken
  | cutOff hwriting hfront => exact .cutOff hwriting (hwritten ▸ hfront) htaken
  | stopped hwriting hfront => exact .stopped hwriting (hwritten ▸ hfront) htaken
  | written _ _ hreply =>
      cases hreply with
      | missing => exact .missing hwritten htaken
      | broken hreading hpart => exact .broken hwritten hreading (htaken ▸ hpart)
      | truncated hne hpart => exact .truncated hwritten (htaken ▸ hne) (htaken ▸ hpart)
      | oversize hmax => exact .oversize hwritten htaken hmax
      | undecodable hfit hdecode =>
          rcases exists_category_of_decode hdecode with ⟨category, hcategory⟩
          exact .undecodable hwritten hfit htaken hcategory
      | answered hfit hdecode =>
          exact .answered hwritten hfit htaken (decode_codec_iff.mp hdecode)

end Speaking

section Telling

variable {host : Host σ} {options : SendOptions} {spent : Span} {deeds : List (Deed Unit)}
  {ledger : Ledger} {result : Except Failure Response} {response : Datum}

/-- Nothing was exchanged where nothing has moved. -/
theorem not_exchanged_blank : ¬ Exchanged options .blank response := by
  intro h
  rcases h.reply with ⟨payload, _, htaken, _⟩
  cases htaken

/-- A response is what comes of a request exactly if it was exchanged. -/
theorem Fate.exchanged_iff (h : Fate host options spent deeds ledger result) :
    Exchanged options ledger response ↔
      ∃ endpoint, result = .ok ⟨endpoint, response, spent⟩ := by
  cases h with
  | refused _ _ =>
      exact iff_of_false not_exchanged_blank fun ⟨_, hresult⟩ => nomatch hresult
  | undialled _ _ _ =>
      exact iff_of_false not_exchanged_blank fun ⟨_, hresult⟩ => nomatch hresult
  | unset _ _ _ =>
      exact iff_of_false not_exchanged_blank fun ⟨_, hresult⟩ => nomatch hresult
  | @talked request endpoint before payload s ledger answer hunderstood _ hencode htalk =>
      have hmax : (host.recorded.client codec request.config).maxPayload = Frame.standardLimit :=
        hunderstood.settings.maxPayload
      -- From the frames to the response, and from the response to the frames.
      constructor
      · intro hexchanged
        rcases hexchanged.reply with ⟨reply, hfit, htaken, hdecode⟩
        have hanswer := htalk.eq_ok_of_frames (hmax ▸ hfit) htaken (decode_codec_iff.mpr hdecode)
        exact ⟨endpoint, by rw [hanswer]; rfl⟩
      · rintro ⟨endpoint', hresult⟩
        rcases answer with error | value
        · cases hresult
        cases hresult
        rcases htalk.frames_of_ok with ⟨hfit, hwritten, reply, hfit', htaken, hdecode⟩
        rw [hmax] at hfit hfit'
        exact ⟨⟨request.value, payload, hunderstood.value, hencode, hfit, hwritten⟩,
          reply, hfit', htaken, decode_codec_iff.mp hdecode⟩

/-- A response comes from the endpoint of the name that was given. -/
theorem Fate.endpoint_of_ok {told : Response} (h : Fate host options spent deeds ledger (.ok told)) :
    told.elapsed = spent ∧ ∃ name, options.target.channelName = .ok name ∧
      Endpoint.resolve name = .ok told.endpoint := by
  generalize hresult : (Except.ok told : Except Failure Response) = result at h
  cases h with
  | refused _ _ => cases hresult
  | undialled _ _ _ => cases hresult
  | unset _ _ _ => cases hresult
  | @talked request endpoint _ _ _ _ answer hunderstood hresolve _ _ =>
      rcases answer with error | value
      · cases hresult
      · cases hresult
        exact ⟨rfl, request.name, hunderstood.name, hresolve⟩

theorem Fate.ne_success (h : Fate host options spent deeds ledger result) {failure : Failure}
    (hresult : result = .error failure) : failure.code ≠ .success := by
  cases h with
  | refused _ hcode =>
      cases hresult
      rw [hcode]
      exact ExitCode.noConfusion
  | undialled _ _ _ =>
      cases hresult
      exact code_ofClient_ne_success _ _
  | unset _ _ _ =>
      cases hresult
      exact code_ofClient_ne_success _ _
  | @talked _ _ _ _ _ _ answer _ _ _ _ =>
      rcases answer with error | value
      · cases hresult
        exact code_ofClient_ne_success _ _
      · cases hresult

/-- Nothing was attempted because something is wrong with what was given, or
    nothing is and the last deed is an attempt. -/
theorem Fate.attempted_or_refused (h : Fate host options spent deeds ledger result) :
    (deeds = [] ∧ Refused options ∧
        ∃ failure, result = .error failure ∧ failure.code = .usage) ∨
      (∃ before last, deeds = before ++ [.attempt last]) ∧ ¬ Refused options := by
  cases h with
  | refused hrefused hcode => exact Or.inl ⟨rfl, hrefused, _, rfl, hcode⟩
  | undialled hunderstood hresolve hverdict =>
      rcases exists_last_of_verdict hverdict with ⟨before, fault, hlast⟩
      exact Or.inr ⟨⟨before, _, hlast⟩, not_refused hunderstood hresolve⟩
  | unset hunderstood hresolve _ =>
      exact Or.inr ⟨⟨_, _, rfl⟩, not_refused hunderstood hresolve⟩
  | talked hunderstood hresolve _ _ =>
      exact Or.inr ⟨⟨_, _, rfl⟩, not_refused hunderstood hresolve⟩

theorem Fate.refused_iff (h : Fate host options spent deeds ledger result) :
    attemptsMade deeds = 0 ↔ Refused options := by
  rcases h.attempted_or_refused with ⟨rfl, hrefused, _⟩ | ⟨⟨before, last, rfl⟩, hgood⟩
  · exact iff_of_true rfl hrefused
  · rw [Dial.attemptsMade_concat_attempt]
    exact iff_of_false (Nat.succ_ne_zero _) hgood

/-- What was read can be shown, without anything in its place. -/
theorem printed_shownResponse (display : Display) (endpoint : Endpoint)
    (hprints : Json.Prints response) :
    Printed display endpoint response spent (shownResponse display endpoint response spent) := by
  rcases hprints .line with ⟨text, htext⟩
  rcases hprints (.indented 0) with ⟨texts, htexts⟩
  cases display with
  | json => exact ⟨text, htext, by rw [shownResponse, jsonLine, htext]⟩
  | table => exact ⟨text, htext, by rw [shownResponse, jsonLine, htext]⟩
  | pretty => exact ⟨texts, htexts, by rw [shownResponse, jsonLines, htexts]⟩

theorem line_ne_empty (text : String) : line text ≠ "" := by
  intro h
  have hchars := congrArg String.toList h
  rw [line, String.toList_append] at hchars
  exact absurd (List.append_eq_nil_iff.mp hchars).2 (by decide)

theorem shownResponse_ne_empty (display : Display) (endpoint : Endpoint) :
    shownResponse display endpoint response spent ≠ "" := by
  cases display with
  | json => exact line_ne_empty _
  | table => exact line_ne_empty _
  | pretty => exact line_ne_empty _

/-- The code of a failed dial is told by the record of the dial. -/
theorem Fate.undialled_of_last {before : List (Deed Unit)} {fault : Fault}
    (h : Fate host options spent deeds ledger result)
    (hlast : deeds = before ++ [.attempt (.error fault)]) :
    ledger = .blank ∧ ∃ failure, result = .error failure ∧
      Undialled options spent (attemptsMade deeds) fault failure.code := by
  cases h with
  | refused _ _ => exact absurd hlast.symm (List.concat_ne_nil _ _)
  | undialled hunderstood _ hverdict =>
      exact ⟨rfl, _, rfl, undialled_of_verdict hunderstood hverdict hlast "connect failed"⟩
  | unset _ _ _ => cases eq_of_concat_eq hlast
  | talked _ _ _ _ => cases eq_of_concat_eq hlast

/-- And the code of whatever comes after it by what moved. -/
theorem Fate.spoken_of_last {before : List (Deed Unit)}
    (h : Fate host options spent deeds ledger result)
    (hlast : deeds = before ++ [.attempt (.ok ())]) (shown : Response → String) :
    ∃ request payload, Understood options request ∧ Json.encode request.value = .ok payload ∧
      Spoken host request.config.frame payload ledger (settled (result.map shown)).code := by
  cases h with
  | refused _ _ => exact absurd hlast.symm (List.concat_ne_nil _ _)
  | undialled _ _ hverdict =>
      rcases exists_last_of_verdict hverdict with ⟨_, _, hfailed⟩
      rw [hlast] at hfailed
      cases eq_of_concat_eq hfailed
  | unset hunderstood _ hconfigure =>
      rcases exists_encode hunderstood with ⟨payload, hencode⟩
      exact ⟨_, payload, hunderstood, hencode, .unset hconfigure rfl⟩
  | @talked request _ _ payload _ _ answer hunderstood _ hencode htalk =>
      have hspoken := spoken_of_talk htalk
      rcases answer with error | value
      · exact ⟨request, payload, hunderstood, hencode, hspoken⟩
      · exact ⟨request, payload, hunderstood, hencode, hspoken⟩

theorem Fate.usage_iff (h : Fate host options spent deeds ledger result)
    (shown : Response → String) :
    (settled (result.map shown)).code = .usage ↔ attemptsMade deeds = 0 := by
  rcases h.attempted_or_refused with
    ⟨rfl, _, failure, rfl, hcode⟩ | ⟨⟨before, last, hlast⟩, hgood⟩
  · exact iff_of_true hcode rfl
  · -- An attempt was made, and whether it failed or not, its code is another.
    refine iff_of_false ?_ (by rw [h.refused_iff]; exact hgood)
    rcases last with fault | _
    · rcases h.undialled_of_last hlast with ⟨_, failure, rfl, hundialled⟩
      exact hundialled.ne_usage
    · rcases h.spoken_of_last hlast shown with ⟨_, _, _, _, hspoken⟩
      exact hspoken.ne_usage

/-- Every fate of a request is told. -/
theorem told_of_fate (h : Fate host options spent deeds ledger result) (display : Display) :
    Told host options display spent deeds ledger (settled (result.map fun response =>
      shownResponse display response.endpoint response.value response.elapsed)) where
  success_iff := by
    rw [number_eq_zero_iff]
    rcases result with failure | told
    · refine iff_of_false (h.ne_success rfl) ?_
      rintro ⟨response, hexchanged⟩
      rcases h.exchanged_iff.mp hexchanged with ⟨endpoint, hresult⟩
      cases hresult
    · rcases told with ⟨endpoint, value, elapsed⟩
      rcases h.endpoint_of_ok with ⟨rfl, _⟩
      exact iff_of_true rfl ⟨value, h.exchanged_iff.mpr ⟨endpoint, rfl⟩⟩
  shown := by
    intro response hexchanged
    rcases h.exchanged_iff.mp hexchanged with ⟨endpoint, rfl⟩
    rcases h.endpoint_of_ok with ⟨_, name, hname, hresolve⟩
    rcases hexchanged.reply with ⟨_, _, _, hdecode⟩
    exact ⟨name, endpoint, hname, hresolve,
      printed_shownResponse display endpoint (Json.prints_of_decode hdecode),
      shownResponse_ne_empty display endpoint⟩
  silent := by
    intro hcode
    rcases result with failure | told
    · rfl
    · exact absurd rfl hcode
  usage_iff := by
    rw [number_eq_sixtyFour_iff]
    exact h.usage_iff _
  refused_iff := h.refused_iff
  attempted := by
    intro hattempts
    rcases h.attempted_or_refused with ⟨rfl, _⟩ | ⟨hlast, _⟩
    · exact absurd rfl hattempts
    · exact hlast
  undialled := by
    intro before fault hlast
    rcases h.undialled_of_last hlast with ⟨hblank, failure, rfl, hundialled⟩
    exact ⟨hblank, hundialled⟩
  connected := by
    intro before hlast
    rcases h.spoken_of_last hlast _ with ⟨request, payload, hunderstood, hencode, hspoken⟩
    exact ⟨request, payload, hunderstood, hunderstood.settings.maxPayload, hencode, hspoken⟩

end Telling

/-- A host that lets everybody in at once, to a socket that plays a script. -/
def welcoming : Host Stream.Script where
  world := ⟨fun _ s => (.ok (), s), fun _ => 0, fun _ s => s, fun _ => false⟩
  socket := ⟨Stream.Script.stream, fun _ s => (.ok (), s), fun _ s => (.ok (), s)⟩

/-- A socket that takes two bytes at first, and gives the frame of a two in
    pieces. -/
def givesTwo : Stream.Script :=
  ⟨[], [.chunk [0, 0], .fault (.bare .interrupted), .chunk [0, 1, 50]], [.ok 2], [], []⟩

/-- What it takes to send a one. -/
def sendOne : SendOptions := ⟨⟨"svc", none⟩, "1", "100ms", none, none⟩

/-- What that is understood to ask for. -/
def requestOne : Request :=
  ⟨⟨"svc", (Address.reason?_eq_none_iff _).1 (by decide)⟩, .unsigned .eight 1,
    ⟨.standard, .standard⟩⟩

theorem exchange_requestOne :
    ∃ s', welcoming.exchange requestOne givesTwo = (.ok (.unsigned .eight 2), s') := by
  have hserves : Stream.Script.stream.Serves givesTwo (framed (Text.utf8 "2")) :=
    Stream.Script.serves (by decide) (by decide) (by decide)
  have hclient : welcoming.client codec requestOne.config =
      ⟨codec, Stream.Script.stream, Frame.standardLimit⟩ := rfl
  have hencode : codec.encode requestOne.value = .ok (Text.utf8 "1") := rfl
  have hdecode : codec.decode (Text.utf8 "2") = .ok (.unsigned .eight 2) := rfl
  rcases hwrite : Frame.write Stream.Script.stream Frame.standardLimit (Text.utf8 "1") givesTwo
    with ⟨wrote, s₁⟩
  rcases Frame.write_of_serves hserves (by decide) hwrite with ⟨rfl, hserves'⟩
  rcases hread : Frame.read Stream.Script.stream Frame.standardLimit s₁ with ⟨heard, s₂⟩
  have hheard : heard = .ok (Text.utf8 "2") := (Frame.read_of_serves hserves' hread).1
  simp only [Host.exchange, hclient, Client.send, Client.write, Client.State.fresh, hencode,
    hwrite, Client.read, hread, hheard, Client.decodeResponse, hdecode]
  exact ⟨_, rfl⟩

end FramedIpc.Command
