import FramedIpc.Proofs.Client.Lockstep
import FramedIpc.Proofs.Client.Recovery

/-!
# Calls That Are Given Up

Whoever waits for a polled client may give a call up, at any of its waits, and
make another. What that does to the rule of one request in flight depends on
what was waited for.

A read that is given up does nothing. What has come in of a frame is in the
inbound buffer, and the client still awaits its response. A write that is given
up is another matter. Its frame is in the outbound buffer and goes out with the
next request, but a client counts a request only once it has gone out, so it
writes another as if there had been none. From then on there is a request more
in flight than the client knows of, and each response that it hears is the reply
to a request before the one that it takes it for.

So the rule holds up to the writes that were given up. However many calls there
are, the requests that were handed over are no more than the responses heard,
one that is awaited, and one for each of those writes (`balance_of_attempts`).
The response to a send comes late by no more than their number
(`reply_of_send`), which is not at all if only reads are given up
(`own_reply_of_send`). And a single one makes it late on every stream that
serves (`late_after_write`).

## Main definitions

* `Attempt`: A call and how long it is waited for.
* `abandoned`: How many writes were given up.
* `Balance`: What was handed over, what was heard, and the count of both.
* `Answers`: What a server that answers each request has done.

## Theorems

* `Balance.perform`: Every call keeps the balance, given up or not.
* `balance_of_attempts`: So does every run.
* `reply_of_send`: A response is late by the writes given up, at most.
* `own_reply_of_send`: If none was, it is the reply to its own request.
* `late_after_write`: If one was, it is the reply to that one.
-/

namespace FramedIpc.PolledClient

open FramedIpc.Client (Call Phase decodeResponse)
open FramedIpc.Frame (Fits framed wire)
open FramedIpc.Transport (Outward)

variable {ρ τ κ : Type}

/-- A call, and for how many waits it is not given up. -/
structure Attempt (ρ : Type) where
  call : Call ρ
  patience : Nat

/-- The state after attempts one after another. -/
def afterAll (client : PolledClient ρ τ κ) : List (Attempt ρ) → State κ → State κ
  | [], s => s
  | attempt :: attempts, s =>
    client.afterAll attempts (client.perform attempt.patience s attempt.call).2

/-- One if writing a request is given up, and nothing if it is not. -/
def giveUps (client : PolledClient ρ τ κ) (request : ρ) (patience : Nat) (s : State κ) : Nat :=
  if (client.write request patience s).1.isNone then 1 else 0

/-- How many writes an attempt gives up, alone or as the half of a send. -/
def givenUp (client : PolledClient ρ τ κ) (attempt : Attempt ρ) (s : State κ) : Nat :=
  match attempt.call with
  | .send request => client.giveUps request attempt.patience s
  | .write request => client.giveUps request attempt.patience s
  | .read => 0
  | .close => 0

/-- How many writes are given up by attempts one after another. -/
def abandoned (client : PolledClient ρ τ κ) : List (Attempt ρ) → State κ → Nat
  | [], _ => 0
  | attempt :: attempts, s =>
    client.givenUp attempt s +
      client.abandoned attempts (client.perform attempt.patience s attempt.call).2

/-- The requests in flight that a client knows of. One that is closed may have
    been closed by a request that it does not know the fate of. -/
def inFlight : Phase → Nat
  | .idle => 0
  | .awaiting | .closed => 1

theorem inFlight_le_one (phase : Phase) : inFlight phase ≤ 1 := by
  cases phase with
  | idle => exact Nat.zero_le 1
  | awaiting => exact Nat.le_refl 1
  | closed => exact Nat.le_refl 1

/-- How a client stands with its stream. The payloads that were handed over are
    the frames that went out or are to go out, and while the client is open
    those that were heard are all that came in, but for what is in the buffer.
    The requests in flight are those the client knows of and the writes that
    were given up, at most. -/
structure Balance (client : PolledClient ρ τ κ) (s : State (κ × Ledger))
    (handed heard : List Bytes) (dropped : Nat) : Prop where
  handed_fit : ∀ payload ∈ handed, Fits client.maxPayload payload
  heard_fit : ∀ payload ∈ heard, Fits client.maxPayload payload
  sent : s.transport.sent (fun s => s.2.written) = wire handed
  holds : s.phase ≠ .closed → s.transport.Holds (fun s => s.2.taken) heard
  counted : handed.length ≤ heard.length + dropped + inFlight s.phase

variable {client : PolledClient ρ τ κ} {s s' : State (κ × Ledger)} {handed heard : List Bytes}
  {dropped patience : Nat} {request : ρ}

theorem Balance.fresh (client : PolledClient ρ τ κ) (start : κ) :
    Balance client (.fresh (start, .blank)) [] [] 0 :=
  ⟨nofun, nofun, rfl, fun _ => rfl, Nat.le_refl 0⟩

section Steps

variable {transport : Transport (κ × Ledger)} {phase : Phase} {dropped' : Nat}

/-- Bytes may go out without a frame more to go out. -/
theorem Balance.moved (h : Balance client s handed heard dropped) (hopen : s.phase ≠ .closed)
    (hout : Outward (fun s => s.2.written) (fun s => s.2.taken) s.transport transport)
    (hcount : handed.length ≤ heard.length + dropped' + inFlight phase) :
    Balance client ⟨transport, phase⟩ handed heard dropped' :=
  ⟨h.handed_fit, h.heard_fit, hout.drains.sent.trans h.sent,
    fun _ => hout.holds (h.holds hopen), hcount⟩

/-- Or with one more. -/
theorem Balance.added {payload : Bytes} (h : Balance client s handed heard dropped)
    (hopen : s.phase ≠ .closed) (hfit : Fits client.maxPayload payload)
    (hout : Outward (fun s => s.2.written) (fun s => s.2.taken)
      { s.transport with outbound := s.transport.outbound ++ framed payload } transport)
    (hcount : handed.length + 1 ≤ heard.length + dropped' + inFlight phase) :
    Balance client ⟨transport, phase⟩ (handed ++ [payload]) heard dropped' := by
  refine ⟨?_, h.heard_fit, ?_, fun _ => hout.holds (h.holds hopen), ?_⟩
  · exact List.forall_mem_append.mpr ⟨h.handed_fit, List.forall_mem_singleton.mpr hfit⟩
  · rw [hout.drains.sent, Frame.wire_concat, ← h.sent]
    simp only [Transport.sent, List.append_assoc]
  · rw [List.length_append, List.length_singleton]
    exact hcount

end Steps

/-- A write hands its frame over or does not, and if it succeeds it does. -/
theorem Balance.write {waited : Waited (Except Client.Error Unit)}
    (h : Balance client s handed heard dropped)
    (hw : client.recorded.write request patience s = (waited, s')) :
    ∃ handed', Balance client s' handed' heard
        (dropped + if waited.isNone then 1 else 0) ∧
      ∀ left, waited = some (.ok (), left) → s.phase = .idle ∧
        ∃ payload, client.codec.encode request = .ok payload ∧ handed' = handed ++ [payload] := by
  have hcounted := h.counted
  rcases s with ⟨before, phase⟩
  unfold PolledClient.write at hw
  cases phase with
  | closed =>
      cases hw
      exact ⟨handed, h, nofun⟩
  | awaiting =>
      cases hw
      exact ⟨handed, h, nofun⟩
  | idle =>
      have hopen : Phase.idle ≠ Phase.closed := nofun
      rcases hencode : client.codec.encode request with cause | payload
      · simp only [recorded, hencode] at hw
        cases hw
        exact ⟨handed, h, nofun⟩
      simp only [recorded, hencode] at hw
      rcases hsend : Transport.send client.stream.recorded client.maxPayload payload patience before
        with ⟨sent, transport⟩
      rw [hsend] at hw
      rcases Transport.send_cases (PolledStream.recorded_tracks client.stream)
          (PolledStream.recorded_receives client.stream) hsend with
        ⟨hout, hnot⟩ | ⟨hfit, hout, hfault⟩
      · -- Nothing of the frame is there, so the count stays.
        rcases sent with _ | ⟨error | _, left⟩
        · rcases Prod.mk.inj hw with ⟨rfl, rfl⟩
          exact ⟨handed, h.moved hopen hout (Nat.le_succ_of_le hcounted), nofun⟩
        · rcases Prod.mk.inj hw with ⟨rfl, rfl⟩
          exact ⟨handed, h.moved hopen hout (Nat.le_trans hcounted (Nat.le_add_right _ _)), nofun⟩
        · exact absurd rfl (hnot left)
      · -- The frame is there. Either the write knows, or it was given up, or it failed.
        rcases sent with _ | ⟨error | _, left⟩
        · cases hw
          exact ⟨_, h.added hopen hfit hout (Nat.succ_le_succ hcounted), nofun⟩
        · simp only [hfault error left rfl, Bool.false_eq_true, if_false] at hw
          cases hw
          exact ⟨_, h.added hopen hfit hout (Nat.succ_le_succ hcounted), nofun⟩
        · cases hw
          exact ⟨_, h.added hopen hfit hout (Nat.succ_le_succ hcounted),
            fun _ _ => ⟨rfl, payload, rfl, rfl⟩⟩

/-- A read hears a frame or does not, and if it succeeds it does. Given up, it
    has changed nothing. -/
theorem Balance.read {waited : Waited (Except Client.Error τ)}
    (h : Balance client s handed heard dropped)
    (hr : client.recorded.read patience s = (waited, s')) :
    ∃ heard', Balance client s' handed heard' dropped ∧
      ∀ value left, waited = some (.ok value, left) → s'.phase = .idle ∧
        ∃ reply, client.codec.decode reply = .ok value ∧ heard' = heard ++ [reply] := by
  by_cases hc : s.phase = .closed
  · rw [PolledClient.read, hc] at hr
    cases hr
    refine ⟨heard, h, fun value left hvalue => ?_⟩
    cases hvalue
  have hcounted := h.counted
  rw [read_of_open hc] at hr
  rcases hnext : s.transport.next client.recorded.stream client.recorded.maxPayload patience with
    ⟨brought, transport⟩
  rw [hnext] at hr
  rcases Transport.next_cases (PolledStream.recorded_tracks client.stream)
      (PolledStream.recorded_receives client.stream) hnext (h.holds hc) with
    ⟨hsent, ⟨rfl, hheld⟩ | ⟨reply, left, rfl, hfit, hheld⟩ | ⟨outcome, left, rfl, hother⟩⟩
  · cases hr
    refine ⟨heard, ⟨h.handed_fit, h.heard_fit, hsent.trans h.sent, fun _ => hheld, hcounted⟩,
      fun value left hvalue => ?_⟩
    cases hvalue
  · cases hr
    refine ⟨heard ++ [reply],
      ⟨h.handed_fit, ?_, hsent.trans h.sent, fun _ => hheld, ?_⟩, ?_⟩
    · exact List.forall_mem_append.mpr ⟨h.heard_fit, List.forall_mem_singleton.mpr hfit⟩
    · -- A response more makes up for the one in flight that the client knew of.
      have hone := inFlight_le_one s.phase
      simp only [List.length_append, List.length_singleton, inFlight]
      omega
    · intro value left' hvalue
      have hdecode := (Prod.ext_iff.mp (Option.some.inj hvalue)).1
      exact ⟨rfl, reply, Client.decode_of_decodeResponse hdecode, rfl⟩
  · -- The connection is at its end, and so is the client.
    have hends : (readOf client.recorded.codec transport outcome).2 = ⟨transport, .closed⟩ ∧
        ∀ value, (readOf client.recorded.codec transport outcome).1 ≠ .ok value := by
      rcases outcome with error | _ | payload
      · refine ⟨rfl, fun value hvalue => ?_⟩
        cases hvalue
      · refine ⟨rfl, fun value hvalue => ?_⟩
        cases hvalue
      · exact absurd rfl (hother payload)
    cases hr
    refine ⟨heard, ?_, fun value left' hvalue => ?_⟩
    · rw [hends.1]
      exact ⟨h.handed_fit, h.heard_fit, hsent.trans h.sent, fun hopen => absurd rfl hopen,
        Nat.le_trans hcounted (Nat.add_le_add_left (inFlight_le_one s.phase) _)⟩
    · exact absurd (Prod.ext_iff.mp (Option.some.inj hvalue)).1 (hends.2 value)

/-- A send is given up in its write or in its read, and only the first counts.
    If it succeeds it has handed one request over and heard one response. -/
theorem Balance.send {waited : Waited (Except Client.Error τ)}
    (h : Balance client s handed heard dropped)
    (hs : client.recorded.send request patience s = (waited, s')) :
    ∃ handed' heard', Balance client s' handed' heard'
        (dropped + client.recorded.giveUps request patience s) ∧
      ∀ value left, waited = some (.ok value, left) → s.phase = .idle ∧ s'.phase = .idle ∧
        ∃ payload reply, client.codec.encode request = .ok payload ∧
          client.codec.decode reply = .ok value ∧
          handed' = handed ++ [payload] ∧ heard' = heard ++ [reply] := by
  unfold PolledClient.send at hs
  unfold giveUps
  rcases hwrite : client.recorded.write request patience s with ⟨wrote, s₁⟩
  rw [hwrite] at hs
  rcases h.write hwrite with ⟨handed', h₁, hwritten⟩
  -- Only a write that has succeeded is followed by a read.
  rcases wrote with _ | ⟨error | _, left⟩
  · cases hs
    exact ⟨handed', heard, h₁, nofun⟩
  · cases hs
    exact ⟨handed', heard, h₁, nofun⟩
  · rcases h₁.read hs with ⟨heard', h₂, hread⟩
    rcases hwritten left rfl with ⟨hidle, payload, hencode, hhanded⟩
    refine ⟨handed', heard', h₂, fun value left' hvalue => ?_⟩
    rcases hread value left' hvalue with ⟨hidle', reply, hdecode, hheard⟩
    exact ⟨hidle, hidle', payload, reply, hencode, hdecode, hhanded, hheard⟩

/-- A close may be given up too, but the client is closed by then. -/
theorem Balance.close (h : Balance client s handed heard dropped) (patience : Nat) :
    Balance client (client.recorded.close patience s) handed heard dropped := by
  by_cases hc : s.phase = .closed
  · rw [close_of_closed patience hc]
    exact h
  · rw [close_of_open patience hc]
    have hdrains := Transport.drains_close (PolledStream.recorded_tracks client.stream) patience
      s.transport
    exact ⟨h.handed_fit, h.heard_fit, hdrains.sent.trans h.sent, fun hopen => absurd rfl hopen,
      Nat.le_trans h.counted (Nat.add_le_add_left (inFlight_le_one s.phase) _)⟩

/-- Every call keeps the balance, whether it is given up or not. -/
theorem Balance.perform (h : Balance client s handed heard dropped) (call : Call ρ)
    (patience : Nat) :
    ∃ handed' heard', Balance client (client.recorded.perform patience s call).2 handed' heard'
      (dropped + client.recorded.givenUp ⟨call, patience⟩ s) := by
  cases call with
  | send request =>
      rcases h.send (rfl : client.recorded.send request patience s = _) with ⟨handed', heard', h', _⟩
      exact ⟨handed', heard', h'⟩
  | write request =>
      rcases h.write (rfl : client.recorded.write request patience s = _) with ⟨handed', h', _⟩
      exact ⟨handed', heard, h'⟩
  | read =>
      rcases h.read rfl with ⟨heard', h', _⟩
      exact ⟨handed, heard', h'⟩
  | close => exact ⟨handed, heard, h.close patience⟩

/-- So does every run. -/
theorem Balance.attempts (h : Balance client s handed heard dropped)
    (attempts : List (Attempt ρ)) :
    ∃ handed' heard', Balance client (client.recorded.afterAll attempts s) handed' heard'
      (dropped + client.recorded.abandoned attempts s) := by
  -- By the attempts; the writes given up before are part of the balance.
  induction attempts generalizing s handed heard dropped with
  | nil => exact ⟨handed, heard, h⟩
  | cons attempt attempts ih =>
      rcases h.perform attempt.call attempt.patience with ⟨handed₁, heard₁, h₁⟩
      rcases ih h₁ with ⟨handed', heard', h'⟩
      rw [Nat.add_assoc] at h'
      exact ⟨handed', heard', h'⟩

/-- However often a call is given up, and at whichever of its waits: what has
    gone out and what is to go out are whole frames, one for each request that
    was handed over; and the requests in flight are the one that the client
    knows of and the writes that were given up, at most. -/
theorem balance_of_attempts (client : PolledClient ρ τ κ) (start : κ)
    (attempts : List (Attempt ρ)) :
    ∃ handed heard, Balance client
      (client.recorded.afterAll attempts (.fresh (start, .blank))) handed heard
      (client.recorded.abandoned attempts (.fresh (start, .blank))) := by
  have h := (Balance.fresh client start).attempts attempts
  rwa [Nat.zero_add] at h

/-- What a server has done that answers each request with one reply, in their
    order: it has taken the requests of some pairs off what went out, and what
    came in are their replies, or as much of them as has come. -/
structure Answers (answered : List (Bytes × Bytes)) (ledger : Ledger) : Prop where
  bounded : ∀ pair ∈ answered, pair.1.length < lengthBound ∧
    pair.2.length < lengthBound
  requests : wire (answered.map Prod.fst) <+: ledger.written
  replies : ledger.taken <+: wire (answered.map Prod.snd)

section Server

variable {answered : List (Bytes × Bytes)}

/-- The requests that a server took are the first of those handed over. -/
theorem Balance.requests_taken (h : Balance client s handed heard dropped)
    (hserver : Answers answered s.transport.stream.2) : answered.map Prod.fst <+: handed := by
  rcases hserver.requests with ⟨more, hmore⟩
  have hall : wire (answered.map Prod.fst) ++ (more ++ s.transport.outbound) = wire handed := by
    rw [← h.sent, Transport.sent, ← hmore, List.append_assoc]
  refine Frame.prefix_of_wire_prefix (fun p hp => ?_)
    (fun p hp => (h.handed_fit p hp).2) hall
  rcases List.mem_map.mp hp with ⟨pair, hmem, rfl⟩
  exact (hserver.bounded pair hmem).1

/-- The responses that were heard are the first of its replies. -/
theorem Balance.replies_heard (h : Balance client s handed heard dropped)
    (hopen : s.phase ≠ .closed) (hserver : Answers answered s.transport.stream.2) :
    heard <+: answered.map Prod.snd := by
  rcases hserver.replies with ⟨more, hmore⟩
  have hheld : s.transport.stream.2.taken = wire heard ++ s.transport.inbound := h.holds hopen
  have hall : wire heard ++ (s.transport.inbound ++ more) = wire (answered.map Prod.snd) := by
    rw [← List.append_assoc, ← hheld, hmore]
  refine Frame.prefix_of_wire_prefix
    (fun p hp => (h.heard_fit p hp).2) (fun p hp => ?_) hall
  rcases List.mem_map.mp hp with ⟨pair, hmem, rfl⟩
  exact (hserver.bounded pair hmem).2

/-- The response to a send is the reply to a request that was handed over
    before it, or with it, and no more requests lie between the two than writes
    were given up. -/
theorem reply_of_send (client : PolledClient ρ τ κ) (start : κ) (attempts : List (Attempt ρ))
    {value : τ} {left : Nat}
    (hsend : client.recorded.send request patience
      (client.recorded.afterAll attempts (.fresh (start, .blank))) = (some (.ok value, left), s'))
    (hserver : Answers answered s'.transport.stream.2) :
    ∃ before own payload reply place,
      s'.transport.sent (fun s => s.2.written) = wire (before ++ [own]) ∧
      client.codec.encode request = .ok own ∧ client.codec.decode reply = .ok value ∧
      answered[place]? = some (payload, reply) ∧
      (before ++ [own])[place]? = some payload ∧
      place ≤ before.length ∧
      before.length ≤
        place + client.recorded.abandoned attempts (.fresh (start, .blank)) := by
  rcases balance_of_attempts client start attempts with ⟨before, heard, h⟩
  rcases h.send hsend with ⟨handed', heard', h', hheard⟩
  rcases hheard value left rfl with ⟨hidle, hidle', own, reply, hencode, hdecode, rfl, rfl⟩
  -- The client was idle, so all that is in flight was given up.
  have hbehind := h.counted
  rw [hidle, inFlight, Nat.add_zero] at hbehind
  rcases Client.pair_of_prefixes (h'.requests_taken hserver)
      (h'.replies_heard (by rw [hidle']; decide) hserver) List.getElem?_concat_length with
    ⟨payload, hpair, hplace⟩
  have hlt := (List.getElem?_eq_some_iff.mp hplace).1
  rw [List.length_append, List.length_singleton] at hlt
  exact ⟨before, own, payload, reply, heard.length, h'.sent, hencode, hdecode, hpair, hplace,
    Nat.le_of_lt_succ hlt, hbehind⟩

/-- If no write was given up, whatever became of the reads, the response to a
    send is the reply to its own request. -/
theorem own_reply_of_send (client : PolledClient ρ τ κ) (start : κ) (attempts : List (Attempt ρ))
    {value : τ} {left : Nat}
    (hnone : client.recorded.abandoned attempts (.fresh (start, .blank)) = 0)
    (hsend : client.recorded.send request patience
      (client.recorded.afterAll attempts (.fresh (start, .blank))) = (some (.ok value, left), s'))
    (hserver : Answers answered s'.transport.stream.2) :
    ∃ before own reply,
      s'.transport.sent (fun s => s.2.written) = wire (before ++ [own]) ∧
      client.codec.encode request = .ok own ∧ client.codec.decode reply = .ok value ∧
      answered[before.length]? = some (own, reply) := by
  rcases reply_of_send client start attempts hsend hserver with
    ⟨before, own, payload, reply, place, hsent, hencode, hdecode, hpair, hplace, hle, hge⟩
  rw [hnone, Nat.add_zero] at hge
  have hsame : place = before.length := Nat.le_antisymm hle hge
  rw [hsame, List.getElem?_concat_length] at hplace
  cases hplace
  exact ⟨before, own, reply, hsent, hencode, hdecode, hsame ▸ hpair⟩

end Server

section Late

variable {row rest own earlier reply : Bytes} {first second : ρ}

/-- A write that is given up at its first wait leaves its whole frame in the
    buffer. -/
theorem write_given_up {s : State κ} {stream : κ} (hidle : s.phase = .idle)
    (hempty : s.transport.outbound = []) (hencode : client.codec.encode request = .ok own)
    (hfit : Fits client.maxPayload own)
    (hwait : client.stream.write (framed own) s.transport.stream = (.pending, stream)) :
    client.write request 0 s = (none, ⟨⟨stream, s.transport.inbound, framed own⟩, .idle⟩) := by
  have hsend : s.transport.send client.stream client.maxPayload own 0 =
      (none, ⟨stream, s.transport.inbound, framed own⟩) := by
    simp only [Transport.send, await_ready (Transport.pollReady_of_empty hempty), Frame.append,
      Frame.encodeWithin_eq_ok_iff.mpr ⟨hfit, rfl⟩, hempty, List.nil_append]
    exact await_impatient (Transport.pollFlush_of_wait (Frame.framed_ne_nil own) hwait)
  simp only [PolledClient.write, hidle, hencode, hsend]

/-- A send writes what was left in the buffer and then its own request, and
    hears the first frame that comes. -/
theorem ends_send_of_brings (hidle : s.phase = .idle)
    (hbrings : s.transport.Brings client.stream.recorded.Serves row)
    (hencode : client.codec.encode request = .ok own) (hfit : Fits client.maxPayload own)
    (hrow : Frame.take client.maxPayload row = .ok (some (reply, rest))) :
    ∃ s', Ends (client.recorded.send request) s (decodeResponse client.codec reply) s' ∧
      s'.phase = .idle ∧ s'.transport.Serves client.stream.recorded rest ∧
      s'.transport.stream.2.written =
        s.transport.sent (fun s => s.2.written) ++ framed own := by
  have ht := PolledStream.recorded_tracks client.stream
  rcases Transport.send_of_brings ht hbrings hfit with ⟨t₁, hsend, hserves, hwritten⟩
  have hwrote : Ends (client.recorded.write request) s (.ok ()) ⟨t₁, .awaiting⟩ :=
    ends_write_written hidle hencode hsend
  rcases Transport.next_of_serves ht client.maxPayload hserves with
    ⟨t₂, hnext, hrest, _, hsame⟩
  rw [Frame.takeLast_of_frame hrow] at hnext
  have hopen : (⟨t₁, .awaiting⟩ : State (κ × Ledger)).phase ≠ .closed := nofun
  have hread : Ends client.recorded.read ⟨t₁, .awaiting⟩ _ _ := ends_read hopen hnext
  exact ⟨⟨t₂, .idle⟩, ends_send hwrote hread, rfl, hrest reply rest hrow, hsame.trans hwritten⟩

/-- One write that is given up is enough. On a stream that serves, the send
    that follows hears the reply to the request that was given up, and its own
    is still to come when it has ended. -/
theorem late_after_write {stream : κ × Ledger} (hidle : s.phase = .idle)
    (hserves : s.transport.Serves client.stream.recorded row)
    (hfirst : client.codec.encode first = .ok earlier) (hfit : Fits client.maxPayload earlier)
    (hsecond : client.codec.encode second = .ok own) (hfit' : Fits client.maxPayload own)
    (hwait : client.stream.recorded.write (framed earlier) s.transport.stream =
      (.pending, stream))
    (hrow : Frame.take client.maxPayload row = .ok (some (reply, rest))) :
    ∃ s₁ s₂, client.recorded.write first 0 s = (none, s₁) ∧
      Ends (client.recorded.send second) s₁ (decodeResponse client.codec reply) s₂ ∧
      s₂.phase = .idle ∧ s₂.transport.Serves client.stream.recorded rest ∧
      s₂.transport.stream.2.written = s.transport.stream.2.written ++ wire [earlier, own] := by
  rcases hserves with ⟨⟨ahead, hahead, waits, R, hR, hs⟩, hempty⟩
  have hwrite : client.recorded.write first 0 s =
      (none, ⟨⟨stream, s.transport.inbound, framed earlier⟩, .idle⟩) :=
    write_given_up hidle hempty hfirst hfit hwait
  -- A wait takes nothing from what the stream has to give.
  have hbrings : Transport.Brings client.stream.recorded.Serves
      ⟨stream, s.transport.inbound, framed earlier⟩ row :=
    ⟨ahead, hahead, waits, R, hR, (hR.writeWaits hs (Frame.framed_ne_nil earlier) hwait).1⟩
  rcases ends_send_of_brings (s := ⟨⟨stream, s.transport.inbound, framed earlier⟩, .idle⟩) rfl
    hbrings hsecond hfit' hrow with ⟨s₂, hsend, hidle', hserves', hwritten⟩
  refine ⟨_, s₂, hwrite, hsend, hidle', hserves', ?_⟩
  have hsame := (PolledStream.recorded_tracks client.stream).write_pending hwait
  simp only [Transport.sent] at hwritten
  rw [hwritten, hsame, Frame.wire_cons, Frame.wire_cons, Frame.wire_nil, List.append_nil,
    List.append_assoc]

end Late

/-- A script that keeps the first write waiting and then gives the replies to
    two requests, each of them a byte. -/
def reluctant : PolledStream.PolledScript :=
  ⟨[], [.ready (.chunk (framed [7])), .ready (.chunk (framed [8]))], [.pending], [], []⟩

/-- A client of it. -/
def impatient : PolledClient Bytes Bytes PolledStream.PolledScript :=
  (Client.plain 16).polling PolledStream.PolledScript.stream

/-- The request that is given up is a one and the other a two, and the response
    to the two is the reply to the one. -/
theorem late_after_write_reluctant :
    ∃ s₁ s₂, impatient.recorded.write [1] 0 (.fresh (reluctant, .blank)) = (none, s₁) ∧
      Ends (impatient.recorded.send [2]) s₁ (.ok [7]) s₂ ∧ s₂.phase = .idle ∧
      s₂.transport.Serves impatient.stream.recorded (framed [8]) ∧
      s₂.transport.stream.2.written = wire [[1], [2]] := by
  have hserves : PolledStream.PolledScript.stream.Serves reluctant (framed [7] ++ framed [8]) :=
    PolledStream.PolledScript.serves (by decide) (by decide) (by decide)
  exact late_after_write rfl ⟨⟨_, rfl, hserves.recorded _⟩, rfl⟩ rfl (by decide) rfl
    (by decide) rfl (Frame.take_framed_append (by decide) (framed [8]))

/-- When the two has gone out nothing has come in, so both are in flight. The
    two writes are balanced by the one that was given up. -/
example :
    let s := impatient.recorded.afterAll [⟨.write [1], 0⟩, ⟨.write [2], 0⟩]
      (.fresh (reluctant, .blank))
    s.transport.stream.2.written = wire [[1], [2]] ∧ s.transport.stream.2.taken = [] ∧
      impatient.recorded.abandoned [⟨.write [1], 0⟩, ⟨.write [2], 0⟩]
        (.fresh (reluctant, .blank)) = 1 := by
  cbv

end FramedIpc.PolledClient
