import FramedIpc.Proofs.Client.Account
import FramedIpc.Proofs.Client.Link

/-!
# Responses and Their Requests

Frames carry no names, so a client knows by nothing but their order which
response belongs to which request. One response too many, read at the wrong
time, and every later request would be answered by the response to the one
before it, with no error to tell.

A client avoids this by counting to one. While it is open, the responses that
it has read are as many as the requests that it has written, or one fewer, and
its phase says which. That would not be enough if a read between two exchanges
could find a response; on a link to a server that only answers it cannot,
because the server has taken no more requests than were written and has sent
no more replies than it took requests. So the counts stay together, and the
bytes on both sides of the link, which are nothing but frames in a row, pair
the responses with the requests.

None of this depends on the schedule: not on when the server moves, what the
calls get through, where they fail, or where the server goes away.

## Main definitions

* `Event`: A call of a client or a move of the server.
* `meet`: Events one after another.
* `Counted`: How many responses were read for so many requests.
* `Paired`: What holds between a client and a server that only answers.
* `IsAnswer`: Whether a call told of a response.
* `meeting`: Events on a link on which nothing has happened.

## Theorems

* `Account.received_le`: No more responses are read than requests written.
* `Account.pair`: Each response that was read is the reply to its request.
* `Paired.halvesKeep`: Every half keeps the pairing.
* `Paired.send`: What a send tells of is the reply to its own request.
* `responses_are_replies`: No response answers another request.
-/

namespace FramedIpc.Client

open FramedIpc.Frame (wire)

variable {ρ τ : Type}

/-- A client on a link. -/
def Link.client (codec : Codec ρ τ) (max : Nat) : Client ρ τ Link :=
  ⟨codec, Link.stream, max⟩

/-- A call of a client, or a move that the server makes between two calls. -/
inductive Event (ρ : Type) where
  | call (call : Call ρ)
  | move (move : Link.Move)

/-- The halves that an event makes. -/
def Event.halves (client : Client ρ τ Link) (s : State (Link × Ledger)) :
    Event ρ → List (Half ρ τ)
  | .call made => made.halves client.recorded s
  | .move _ => []

/-- The state after an event. -/
def Event.after (client : Client ρ τ Link) (s : State (Link × Ledger)) :
    Event ρ → State (Link × Ledger)
  | .call made => made.after client.recorded s
  | .move made => ⟨(s.stream.1.moved made, s.stream.2), s.phase⟩

/-- Events one after another: the halves that they make, and the state after
    the last. -/
def meet (client : Client ρ τ Link) :
    List (Event ρ) → State (Link × Ledger) → List (Half ρ τ) × State (Link × Ledger)
  | [], s => ([], s)
  | event :: events, s =>
    (event.halves client s ++ (meet client events (event.after client s)).1,
      (meet client events (event.after client s)).2)

/-- How many responses were read for so many requests. -/
def Counted (requests responses : Nat) : Phase → Prop
  | .idle => requests = responses
  | .awaiting => requests = responses + 1
  | .closed => responses ≤ requests

theorem Counted.le {requests responses : Nat} {phase : Phase}
    (h : Counted requests responses phase) : responses ≤ requests := by
  cases phase with
  | idle => exact Nat.le_of_eq h.symm
  | awaiting => exact h ▸ Nat.le_succ responses
  | closed => exact h

/-- While a client is open its phase tells the counts apart. -/
theorem Counted.awaiting_iff {requests responses : Nat} {phase : Phase}
    (h : Counted requests responses phase) (hopen : phase ≠ .closed) :
    (phase = .awaiting ↔ requests = responses + 1) ∧
      (phase ≠ .awaiting → requests = responses) := by
  cases phase with
  | idle =>
      rw [Counted] at h
      refine ⟨⟨?_, ?_⟩, fun _ => h⟩
      · intro hc
        cases hc
      · intro hlen
        omega
  | awaiting => exact ⟨⟨fun _ => h, fun _ => rfl⟩, fun hne => absurd rfl hne⟩
  | closed => exact absurd rfl hopen

section Account

variable {client : Client ρ τ Link} {history : List (Half ρ τ)} {s : State (Link × Ledger)}
  {sent received : List Bytes} {tail rest : Bytes}

theorem Account.length_requests (h : Account client history s sent received tail rest) :
    (requests history).length = sent.length := by
  have hlen := congrArg List.length h.encoded
  rwa [List.length_map, List.length_map] at hlen

theorem Account.length_responses (h : Account client history s sent received tail rest) :
    (responses history).length = received.length := by
  rw [h.decoded, List.length_map]

/-- The requests that the server took are those that were sent, and the one
    that an error broke off at most. -/
theorem Account.requests_taken (h : Account client history s sent received tail rest)
    (hs : Link.Serving s.stream) :
    ∃ more, s.stream.1.answered.map Prod.fst <+: sent ++ more ∧ (tail = [] → more = []) := by
  have hanswered : ∀ p ∈ s.stream.1.answered.map Prod.fst, p.length < lengthBound := by
    intro p hp
    rcases List.mem_map.mp hp with ⟨pair, hmem, rfl⟩
    exact (hs.bounded pair hmem).1
  have hsent : ∀ p ∈ sent, p.length < lengthBound :=
    fun p hp => (h.fits p (List.mem_append_left _ hp)).2
  have hwire := hs.requests.symm.trans h.written
  by_cases htail : tail = []
  · rw [htail, List.append_nil] at hwire
    refine ⟨[], ?_, fun _ => rfl⟩
    rw [List.append_nil]
    exact Frame.prefix_of_wire_prefix hanswered hsent hwire
  rcases h.tail_stray with hnil | ⟨_, payload, _, _, _, hfit, back, hback⟩
  · exact absurd hnil htail
  -- The frame that was broken off may yet be whole; completed, it certainly is.
  have hmore : wire (s.stream.1.answered.map Prod.fst) ++ (s.stream.1.toServer ++ back) =
      wire (sent ++ [payload]) := by
    rw [← List.append_assoc, hwire, List.append_assoc, hback, Frame.wire_concat]
  refine ⟨[payload], ?_, fun hnil => absurd hnil htail⟩
  refine Frame.prefix_of_wire_prefix hanswered (fun p hp => ?_) hmore
  rcases List.mem_append.mp hp with hp | hp
  · exact hsent p hp
  · rw [List.mem_singleton.mp hp]
    exact hfit.2

/-- The responses that were read are replies of the server, in order. -/
theorem Account.responses_sent (h : Account client history s sent received tail rest)
    (hs : Link.Serving s.stream) :
    received <+: s.stream.1.answered.map Prod.snd := by
  rcases hs.replies with ⟨back, hback⟩
  rw [h.taken, List.append_assoc, List.append_assoc] at hback
  refine Frame.prefix_of_wire_prefix (fun p hp => ?_) (fun p hp => ?_) hback
  · exact (h.fits p (List.mem_append_right _ hp)).2
  · rcases List.mem_map.mp hp with ⟨pair, hmem, rfl⟩
    exact (hs.bounded pair hmem).2

/-- A client that is open has read no more responses than it has written
    requests, since nothing else makes the server reply. -/
theorem Account.received_le (h : Account client history s sent received tail rest)
    (hs : Link.Serving s.stream)
    (hopen : s.phase ≠ .closed) : received.length ≤ sent.length := by
  rcases h.requests_taken hs with ⟨more, hmore, hnone⟩
  have hreplies := (h.responses_sent hs).length_le
  have htaken := hmore.length_le
  rw [hnone (h.open_clean hopen).1, List.append_nil] at htaken
  rw [List.length_map] at hreplies htaken
  exact Nat.le_trans hreplies htaken

/-- Each response that was read is the reply to its request. -/
theorem Account.pair (h : Account client history s sent received tail rest)
    (hs : Link.Serving s.stream)
    (hle : received.length ≤ sent.length) {j : Nat} {response : Bytes}
    (hj : received[j]? = some response) :
    ∃ request, sent[j]? = some request ∧ s.stream.1.answered[j]? = some (request, response) := by
  rcases h.requests_taken hs with ⟨more, hmore, _⟩
  rcases pair_of_prefixes hmore (h.responses_sent hs) hj with ⟨request, hpair, hrequest⟩
  -- The request that an error broke off comes after all those that were sent.
  have hlt := (List.getElem?_eq_some_iff.mp hj).1
  rw [List.getElem?_append_left (Nat.lt_of_lt_of_le hlt hle)] at hrequest
  exact ⟨request, hrequest, hpair⟩

end Account

/-- What holds between a client and a server that only answers. -/
structure Paired (client : Client ρ τ Link) (history : List (Half ρ τ))
    (s : State (Link × Ledger)) : Prop where
  account : ∃ sent received tail rest, Account client history s sent received tail rest
  serving : Link.Serving s.stream
  counted : Counted (requests history).length (responses history).length s.phase

theorem responses_le_requests {client : Client ρ τ Link} {history : List (Half ρ τ)}
    {s : State (Link × Ledger)}
    (ha : ∃ sent received tail rest, Account client history s sent received tail rest)
    (hs : Link.Serving s.stream)
    (hopen : s.phase ≠ .closed) : (responses history).length ≤ (requests history).length := by
  rcases ha with ⟨sent, received, tail, rest, h⟩
  rw [h.length_requests, h.length_responses]
  exact h.received_le hs hopen

theorem Paired.fresh (codec : Codec ρ τ) (max : Nat) (turns : List Link.Turn) :
    Paired (Link.client codec max) [] (.fresh (Link.fresh turns, .blank)) :=
  ⟨⟨_, _, _, _, Account.fresh (Link.client codec max) (Link.fresh turns)⟩,
    Link.Served.fresh turns, rfl⟩

/-- Every half keeps the pairing. -/
theorem Paired.halvesKeep (codec : Codec ρ τ) (max : Nat) :
    HalvesKeep (Link.client codec max).recorded (Paired (Link.client codec max)) := by
  have haccount := Account.halvesKeep (Link.client codec max)
  have hkeeps := Link.serving_keeps
  constructor
  · intro history s request outcome s' h hw
    refine ⟨haccount.write h.account hw, keeps_write hkeeps.writing h.serving hw, ?_⟩
    have hcounted := h.counted
    cases writeHalf_of_write hw with
    | closed _ => rwa [requests_concat_none rfl, responses_concat_none rfl]
    | pending _ => rwa [requests_concat_none rfl, responses_concat_none rfl]
    | unencoded _ _ => rwa [requests_concat_none rfl, responses_concat_none rfl]
    | refused _ _ _ _ => rwa [requests_concat_none rfl, responses_concat_none rfl]
    | broken _ _ _ _ =>
        rw [requests_concat_none rfl, responses_concat_none rfl]
        exact hcounted.le
    | written hidle _ _ =>
        rw [requests_concat_some rfl, responses_concat_none rfl, List.length_append,
          List.length_singleton]
        rw [hidle] at hcounted
        exact congrArg (· + 1) hcounted
  · intro history s outcome s' h hr
    have ha := haccount.read h.account hr
    have hs := keeps_read hkeeps.reading h.serving hr
    refine ⟨ha, hs, ?_⟩
    have hcounted := h.counted
    cases readHalf_of_read hr with
    | closed _ => rwa [requests_concat_none rfl, responses_concat_none rfl]
    | @broken error _ _ _ =>
        rw [requests_concat_none rfl, responses_concat_none (response?_ofFrame error)]
        exact hcounted.le
    | @answered payload _ hopen _ =>
        -- The client is still open, so it is known how many responses there are.
        have hle := responses_le_requests ha hs (fun hc => by cases hc)
        rw [requests_concat_none rfl, responses_concat_some (response?_decodeResponse _ _),
          List.length_append, List.length_singleton] at hle ⊢
        -- Between two exchanges there would be a response too many.
        rcases hphase : s.phase with _ | _ | _
        · rw [hphase] at hcounted
          exact absurd hle (Nat.not_le.mpr (Nat.lt_succ_of_le (Nat.le_of_eq hcounted)))
        · rw [hphase] at hcounted
          exact hcounted
        · exact absurd hphase hopen
  · intro history s h
    refine ⟨haccount.close h.account, keeps_close hkeeps h.serving, ?_⟩
    have hcounted := h.counted
    by_cases hc : s.phase = .closed
    · rw [close_of_closed hc]
      exact hcounted
    · rw [close_of_open hc]
      exact hcounted.le

theorem Paired.event {codec : Codec ρ τ} {max : Nat} {history : List (Half ρ τ)}
    {s : State (Link × Ledger)} (h : Paired (Link.client codec max) history s)
    (event : Event ρ) :
    Paired (Link.client codec max) (history ++ event.halves (Link.client codec max) s)
      (event.after (Link.client codec max) s) := by
  cases event with
  | call call => exact (Paired.halvesKeep codec max).call h call
  | move move =>
      rw [Event.halves, List.append_nil]
      rcases h.account with ⟨sent, received, tail, rest, ha⟩
      -- A move changes the link and leaves the ledger alone.
      exact ⟨⟨sent, received, tail, rest, ha.encoded, ha.decoded, ha.fits, ha.written, ha.taken,
        ha.open_clean, ha.tail_stray, ha.rest_short⟩, h.serving.moved move, h.counted⟩

theorem Paired.meet {codec : Codec ρ τ} {max : Nat} {history : List (Half ρ τ)}
    {s : State (Link × Ledger)} (h : Paired (Link.client codec max) history s)
    (events : List (Event ρ)) :
    Paired (Link.client codec max) (history ++ (meet (Link.client codec max) events s).1)
      (meet (Link.client codec max) events s).2 := by
  induction events generalizing history s with
  | nil =>
      rw [Client.meet, List.append_nil]
      exact h
  | cons event events ih =>
      rw [Client.meet, ← List.append_assoc]
      exact ih (h.event event)

/-- Whether a call that was to give a response told of one: as the codec read
    it, or as what the codec could not read. -/
def IsAnswer (outcome : Except Error τ) : Prop :=
  (∃ response, outcome = .ok response) ∨ ∃ cause, outcome = .error (.codec cause)

theorem not_isAnswer_ofFrame (error : Frame.Error) :
    ¬ IsAnswer (.error (.ofFrame error) : Except Error τ) := by
  rintro (⟨_, ho⟩ | ⟨cause, ho⟩)
  · cases ho
  · exact ofFrame_ne_codec error cause (Except.error.inj ho)

theorem unencoded_of_isAnswer {σ : Type} {client : Client ρ τ σ} {request : ρ}
    {s s' : State σ} {error : Error} (hw : client.write request s = (.error error, s'))
    (h : IsAnswer (.error error : Except Error τ)) :
    ∃ cause, client.codec.encode request = .error cause ∧ error = .codec cause := by
  cases writeHalf_of_write hw with
  | closed _ =>
      rcases h with ⟨_, ho⟩ | ⟨_, ho⟩
      · cases ho
      · cases ho
  | pending _ =>
      rcases h with ⟨_, ho⟩ | ⟨_, ho⟩
      · cases ho
      · cases ho
  | @unencoded cause _ hencode => exact ⟨cause, hencode, rfl⟩
  | refused _ _ _ _ => exact absurd h (not_isAnswer_ofFrame _)
  | broken _ _ _ _ => exact absurd h (not_isAnswer_ofFrame _)

/-- What a send tells of as a response is the reply to the request that this
    very send has written. A request that is no payload is told of by the same
    error, but then nothing was written. -/
theorem Paired.send {codec : Codec ρ τ} {max : Nat} {history : List (Half ρ τ)}
    {s s' : State (Link × Ledger)} {sent received : List Bytes} {tail rest : Bytes}
    {request : ρ} {outcome : Except Error τ} (h : Paired (Link.client codec max) history s)
    (ha : Account (Link.client codec max) history s sent received tail rest)
    (hsend : (Link.client codec max).recorded.send request s = (outcome, s'))
    (hanswer : IsAnswer outcome) :
    (∃ cause, codec.encode request = .error cause ∧ outcome = .error (.codec cause)) ∨
      ∃ payload reply, codec.encode request = .ok payload ∧
        s'.stream.1.answered[sent.length]? = some (payload, reply) ∧
        outcome = decodeResponse codec reply := by
  have hkeeps := Link.serving_keeps
  rw [send_eq] at hsend
  rcases hw : (Link.client codec max).recorded.write request s with ⟨error | _, s₁⟩
  · rw [hw] at hsend
    cases hsend
    rcases unencoded_of_isAnswer hw hanswer with ⟨cause, hencode, rfl⟩
    exact Or.inl ⟨cause, hencode, rfl⟩
  rw [hw] at hsend
  have hs := keeps_read hkeeps.reading (keeps_write hkeeps.writing h.serving hw) hsend
  cases writeHalf_of_write hw with
  | @written payload stream hidle hencode hwrite =>
      have ha₁ := ha.written_more (by rw [hidle]; decide) hencode hwrite
      cases readHalf_of_read hsend with
      | closed hc => cases hc
      | broken _ _ => exact absurd hanswer (not_isAnswer_ofFrame _)
      | @answered reply _ hopen hread =>
          have ha₂ := ha₁.read_more hopen hread
          -- The client was idle, so this request and this response have one place.
          have hlen := h.counted
          rw [hidle, Counted, ha.length_requests, ha.length_responses] at hlen
          have hle : (received ++ [reply]).length ≤ (sent ++ [payload]).length := by
            rw [List.length_append, List.length_append, hlen]
            exact Nat.le_refl _
          have hlast : (received ++ [reply])[sent.length]? = some reply := by
            rw [hlen]
            exact List.getElem?_concat_length
          rcases ha₂.pair hs hle hlast with ⟨request', hrequest, hpair⟩
          rw [List.getElem?_concat_length] at hrequest
          cases hrequest
          exact Or.inr ⟨payload, reply, hencode, hpair, rfl⟩

/-- Calls of a client and moves of a server on a link on which nothing has
    happened: the halves that the calls make, and the state after the last
    event. -/
def meeting (codec : Codec ρ τ) (max : Nat) (turns : List Link.Turn)
    (events : List (Event ρ)) : List (Half ρ τ) × State (Link × Ledger) :=
  meet (Link.client codec max) events (.fresh (Link.fresh turns, .blank))

/-- No response answers another request. Whatever the schedule and the order
    of events, each response that was read is the server's reply to the request
    that was written in its place, and what a send tells of is the reply to its
    own request. While the client is open, it awaits a response exactly if one
    more request has been written than responses read. -/
theorem responses_are_replies (codec : Codec ρ τ) (max : Nat) (turns : List Link.Turn)
    (events : List (Event ρ)) :
    ∃ sent received : List Bytes,
      (requests (meeting codec max turns events).1).map codec.encode = sent.map .ok ∧
      responses (meeting codec max turns events).1 = received.map (decodeResponse codec) ∧
      (∀ (j : Nat) (response : Bytes), received[j]? = some response →
        ∃ request, sent[j]? = some request ∧
          (meeting codec max turns events).2.stream.1.answered[j]? = some (request, response)) ∧
      (∀ request outcome s',
        (Link.client codec max).recorded.send request (meeting codec max turns events).2 =
          (outcome, s') → IsAnswer outcome →
        (∃ cause, codec.encode request = .error cause ∧ outcome = .error (.codec cause)) ∨
          ∃ payload reply, codec.encode request = .ok payload ∧
            s'.stream.1.answered[sent.length]? = some (payload, reply) ∧
            outcome = decodeResponse codec reply) ∧
      ((meeting codec max turns events).2.phase ≠ .closed →
        ((meeting codec max turns events).2.phase = .awaiting ↔
          sent.length = received.length + 1) ∧
        ((meeting codec max turns events).2.phase ≠ .awaiting →
          sent.length = received.length)) := by
  have h := (Paired.fresh codec max turns).meet events
  rcases h.account with ⟨sent, received, tail, rest, ha⟩
  have hcounted := h.counted
  rw [ha.length_requests, ha.length_responses] at hcounted
  exact ⟨sent, received, ha.encoded, ha.decoded,
    fun j response hj => ha.pair h.serving hcounted.le hj,
    fun request outcome s' hsend hanswer => h.send ha hsend hanswer,
    fun hopen => hcounted.awaiting_iff hopen⟩

/-- A request that goes out in two pieces, with an interruption between them,
    is answered, and the reply comes in three. -/
example : (responses (meeting (⟨"bytes", .ok, .ok⟩ : Codec Bytes Bytes) 16
    [⟨[], .ok 3⟩, ⟨[], .error (.bare .interrupted)⟩, ⟨[], .ok 8⟩, ⟨[], .ok 0⟩,
      ⟨[.answer [9]], .ok 1⟩, ⟨[], .ok 7⟩, ⟨[], .ok 0⟩]
    [.call (.send [7])]).1).map Except.toOption = [some [9]] := by
  cbv

end FramedIpc.Client
