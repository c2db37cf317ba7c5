import FramedIpc.Proofs.Client.Run

/-!
# One Request and Its Reply

A fresh client that sends one request either gets the response or an error, and
which of the two, and which error, can be told from the bytes that have moved
and the call that failed. `Talk` lists the ways: the frame of the request may
be refused, be cut off by a fault, or be taken only in part; or it is written,
and then there are the ways of a `Reply`. It may not come at all, come cut
short by a fault or by the end of the stream, promise too much, or come whole;
and a whole reply is a response or it is not.

The list leaves no choice where whole frames have gone both ways: a reply that
the codec makes something of is answered with what it makes
(`Talk.eq_ok_of_frames`), and nothing else is.

## Main definitions

* `Reply`: The ways that a reply can come, with the bytes that were taken.
* `Talk`: The ways that a request can be sent and its reply come.

## Theorems

* `reply_of_read`: Every read from an open client is one of the ways.
* `talk_of_send`: So is every send from a fresh one.
* `close_moves_nothing`: A close adds nothing to it.
* `Talk.frames_of_ok`, `Talk.eq_ok_of_frames`: A response is told exactly if
  two whole frames have moved and the second is one.
-/

namespace FramedIpc.Client

open FramedIpc.Frame (Fits framed Reading Writing)

variable {ρ τ σ : Type}

/-- The ways that a reply can come, with the bytes that were taken off the
    stream and what the client answers. -/
inductive Reply (client : Client ρ τ σ) (s : σ) : Bytes → Except Error τ → Prop where
  /-- The stream has ended before the reply. -/
  | missing : Reply client s [] (.error .disconnected)
  | broken {part : Bytes} {fault : Fault} {s' : σ} :
      Reading client.stream client.maxPayload s (.error (.io fault)) s' →
      (∀ found, Frame.take client.maxPayload part ≠ .ok (some found)) →
      Reply client s part (.error (.transport fault))
  /-- The stream has ended inside the reply. -/
  | truncated {part : Bytes} {expected received : Nat} :
      part ≠ [] → Frame.take client.maxPayload part = .ok none →
      Reply client s part (.error (.truncatedFrame expected received))
  | oversize {header : Header} :
      client.maxPayload < header.length →
      Reply client s header.bytes (.error (.frameTooLarge header.length client.maxPayload))
  | undecodable {payload : Bytes} {cause : Payload.Error} :
      Fits client.maxPayload payload → client.codec.decode payload = .error cause →
      Reply client s (framed payload) (.error (.codec cause))
  | answered {payload : Bytes} {response : τ} :
      Fits client.maxPayload payload → client.codec.decode payload = .ok response →
      Reply client s (framed payload) (.ok response)

/-- The ways that the payload of a request can be sent and its reply come, with
    the bytes that were written and taken. -/
inductive Talk (client : Client ρ τ σ) (payload : Bytes) (s : σ) :
    Bytes → Bytes → Except Error τ → Prop where
  | overlong {size max : Nat} :
      ¬ Fits client.maxPayload payload →
      Talk client payload s [] [] (.error (.frameTooLarge size max))
  | cutOff {front : Bytes} {fault : Fault} {s' : σ} :
      Writing client.stream client.maxPayload payload s (.error (.io fault)) s' →
      front <+: framed payload → Talk client payload s front [] (.error (.transport fault))
  | stopped {front : Bytes} {s' : σ} :
      Writing client.stream client.maxPayload payload s (.error .connectionClosed) s' →
      front <+: framed payload → Talk client payload s front [] (.error .disconnected)
  | written {taken : Bytes} {outcome : Except Error τ} {s₁ : σ} :
      Fits client.maxPayload payload →
      Writing client.stream client.maxPayload payload s (.ok ()) s₁ →
      Reply client s₁ taken outcome → Talk client payload s (framed payload) taken outcome

variable {client : Client ρ τ σ} {payload : Bytes}

section Frames

/-! What a reply says of the bytes, and the bytes of the reply. -/

/-- A whole frame within the limit is the only thing that a response is made of. -/
theorem Reply.frame_of_ok {s : σ} {taken : Bytes} {response : τ}
    (h : Reply client s taken (.ok response)) :
    ∃ reply, Fits client.maxPayload reply ∧ taken = framed reply ∧
      client.codec.decode reply = .ok response := by
  cases h with
  | answered hfit hdecode => exact ⟨_, hfit, rfl, hdecode⟩

theorem take_framed {max : Nat} {payload : Bytes} (hfit : Fits max payload) :
    Frame.take max (framed payload) = .ok (some (payload, [])) := by
  have htake := Frame.take_framed_append hfit []
  rw [List.append_nil] at htake
  exact htake

theorem Reply.eq_ok_of_frame {s : σ} {taken reply : Bytes} {outcome : Except Error τ}
    {response : τ} (h : Reply client s taken outcome) (hfit : Fits client.maxPayload reply)
    (htaken : taken = framed reply) (hdecode : client.codec.decode reply = .ok response) :
    outcome = .ok response := by
  -- Each way leaves its mark on what a buffer of these bytes has in front.
  have htake := take_framed hfit
  rw [← htaken] at htake
  cases h with
  | missing => cases htake
  | broken _ hpart => exact absurd htake (hpart _)
  | truncated _ hpart =>
      rw [hpart] at htake
      cases htake
  | oversize hmax =>
      have hover := Frame.take_of_oversize hmax []
      rw [List.append_nil] at hover
      rw [hover] at htake
      cases htake
  | undecodable hfit' hdecode' =>
      rw [take_framed hfit'] at htake
      cases htake
      rw [hdecode'] at hdecode
      cases hdecode
  | answered hfit' hdecode' =>
      rw [take_framed hfit'] at htake
      cases htake
      rw [hdecode'] at hdecode
      cases hdecode
      rfl

/-- A response is told only if two whole frames have moved. -/
theorem Talk.frames_of_ok {s : σ} {written taken : Bytes} {response : τ}
    (h : Talk client payload s written taken (.ok response)) :
    Fits client.maxPayload payload ∧ written = framed payload ∧
      ∃ reply, Fits client.maxPayload reply ∧ taken = framed reply ∧
        client.codec.decode reply = .ok response := by
  cases h with
  | written hfit _ hreply => exact ⟨hfit, rfl, hreply.frame_of_ok⟩

/-- And it is told whenever they have, and the second is a response. -/
theorem Talk.eq_ok_of_frames {s : σ} {written taken reply : Bytes} {outcome : Except Error τ}
    {response : τ} (h : Talk client payload s written taken outcome)
    (hfit : Fits client.maxPayload reply) (htaken : taken = framed reply)
    (hdecode : client.codec.decode reply = .ok response) : outcome = .ok response := by
  cases h with
  | written _ _ hreply => exact hreply.eq_ok_of_frame hfit htaken hdecode
  | overlong _ => cases htaken
  | cutOff _ _ => cases htaken
  | stopped _ _ => cases htaken

end Frames

section Calls

variable {written taken : σ → Bytes}

theorem ofFrame_of_refusal {error : Frame.Error} (h : error.isRefusal = true) :
    ∃ size max, Error.ofFrame error = .frameTooLarge size max := by
  cases error with
  | payloadTooLarge size max => exact ⟨size, max, rfl⟩
  | lengthOverflow size => exact ⟨size, _, rfl⟩
  | io fault => cases h
  | connectionClosed => cases h
  | truncated expected received => cases h

/-- The ways that a frame can come are the ways that a reply can. -/
theorem reply_of_reading (ht : client.stream.Tracks written taken) {s s' : σ}
    {error : Frame.Error} (h : Reading client.stream client.maxPayload s (.error error) s') :
    written s' = written s ∧ ∃ part, taken s' = taken s ++ part ∧
      Reply client s part (.error (.ofFrame error)) := by
  cases h with
  | noHeader hstart =>
      rcases ht.readWhole_error hstart with ⟨hw, part, hlen, hp⟩
      exact ⟨hw, part, hp, .broken (.noHeader hstart) (Frame.take_ne_of_short hlen)⟩
  | nothing hstart =>
      rcases ht.readWhole_ok hstart with ⟨hw, hp⟩
      exact ⟨hw, [], hp, .missing⟩
  | shortHeader hstart hne hlen =>
      rcases ht.readWhole_ok hstart with ⟨hw, hp⟩
      exact ⟨hw, _, hp, .truncated hne (Frame.take_of_short hlen)⟩
  | oversize hstart hmax =>
      rcases ht.readWhole_ok hstart with ⟨hw, hp⟩
      exact ⟨hw, _, hp, .oversize hmax⟩
  | noPayload hstart hmax hbody =>
      rcases ht.readWhole_ok hstart with ⟨hw₁, hp₁⟩
      rcases ht.readWhole_error hbody with ⟨hw₂, part, hlen, hp₂⟩
      refine ⟨hw₂.trans hw₁, _, by rw [hp₂, hp₁, List.append_assoc], ?_⟩
      exact .broken (.noPayload hstart hmax hbody) (Frame.take_ne_of_header hmax hlen)
  | shortPayload hstart hmax hbody hlen =>
      rcases ht.readWhole_ok hstart with ⟨hw₁, hp₁⟩
      rcases ht.readWhole_ok hbody with ⟨hw₂, hp₂⟩
      refine ⟨hw₂.trans hw₁, _, by rw [hp₂, hp₁, List.append_assoc], ?_⟩
      exact .truncated (by simp only [Header.bytes, List.cons_append, ne_eq, reduceCtorEq,
        not_false_eq_true]) (Frame.take_of_header hmax hlen)

theorem reply_of_read (ht : client.stream.Tracks written taken) {s s' : State σ}
    {outcome : Except Error τ} (hopen : s.phase ≠ .closed) (h : client.read s = (outcome, s')) :
    written s'.stream = written s.stream ∧ ∃ part, taken s'.stream = taken s.stream ++ part ∧
      Reply client s.stream part outcome := by
  cases readHalf_of_read h with
  | closed hclosed => exact absurd hclosed hopen
  | broken _ hframe => exact reply_of_reading ht (Frame.reading_of_read hframe)
  | @answered payload _ _ hframe =>
      rcases Frame.read_cases ht hframe with ⟨hw, ⟨_, ho, hfit, hp⟩ | ⟨_, _, ho, _⟩⟩
      · cases ho
        refine ⟨hw, framed payload, hp, ?_⟩
        rw [decodeResponse]
        rcases hdecode : client.codec.decode payload with cause | response
        · exact .undecodable hfit hdecode
        · exact .answered hfit hdecode
      · cases ho

theorem talk_of_broken (ht : client.stream.Tracks written taken) {s s' : σ}
    {error : Frame.Error}
    (h : Frame.write client.stream client.maxPayload payload s = (.error error, s'))
    (hbroken : error.isRefusal = false) :
    taken s' = taken s ∧ ∃ front, written s' = written s ++ front ∧
      Talk client payload s front [] (.error (.ofFrame error)) := by
  rcases Frame.write_cases ht h with
    ⟨hp, ⟨ho, _⟩ | ⟨_, ho, hr, _⟩ | ⟨_, front, ho, _, _, hfront, hw⟩⟩
  · cases ho
  · cases ho
    rw [hbroken] at hr
    cases hr
  cases ho
  refine ⟨hp, front, hw, ?_⟩
  cases Frame.writing_of_write h with
  | refused he =>
      rw [Frame.isRefusal_of_encodeWithin he] at hbroken
      cases hbroken
  | cutOff hfit hwhole => exact .cutOff (.cutOff hfit hwhole) hfront
  | stopped hfit hwhole => exact .stopped (.stopped hfit hwhole) hfront
  | unflushed hfit hwhole hflush => exact .cutOff (.unflushed hfit hwhole hflush) hfront

/-- The ways that a fresh client can send a request of which the codec makes a
    payload. -/
theorem talk_of_send (ht : client.stream.Tracks written taken) {request : ρ} {s : σ}
    {s' : State σ} {outcome : Except Error τ} (hencode : client.codec.encode request = .ok payload)
    (h : client.send request (.fresh s) = (outcome, s')) :
    ∃ out back, written s'.stream = written s ++ out ∧ taken s'.stream = taken s ++ back ∧
      Talk client payload s out back outcome := by
  -- A send that fails in its write never gets to its read.
  rw [send_eq] at h
  rcases hwrite : client.write request (.fresh s) with ⟨refusal | _, s₁⟩
  · rw [hwrite] at h
    cases h
    cases writeHalf_of_write hwrite with
    | closed hphase => cases hphase
    | pending hphase => cases hphase
    | unencoded _ he =>
        rw [hencode] at he
        cases he
    | refused _ he hframe hr =>
        rw [hencode] at he
        cases he
        rcases ofFrame_of_refusal hr with ⟨size, max, herror⟩
        rw [herror]
        -- What fits is not refused.
        refine ⟨[], [], (List.append_nil _).symm, (List.append_nil _).symm, .overlong fun hfit => ?_⟩
        have hrefused := Frame.encodeWithin_of_write_refusal hframe hr
        rw [Frame.encodeWithin_eq_ok_iff.mpr ⟨hfit, rfl⟩] at hrefused
        cases hrefused
    | broken _ he hframe hbroken =>
        rw [hencode] at he
        cases he
        rcases talk_of_broken ht hframe hbroken with ⟨hp, front, hw, htalk⟩
        exact ⟨front, [], hw, by rw [hp]; exact (List.append_nil _).symm, htalk⟩
  · rw [hwrite] at h
    cases writeHalf_of_write hwrite with
    | written _ he hframe =>
        rw [hencode] at he
        cases he
        rcases Frame.write_cases ht hframe with
          ⟨hp, ⟨_, hfit, hw⟩ | ⟨_, ho, _⟩ | ⟨_, _, ho, _⟩⟩
        · rcases reply_of_read ht Phase.noConfusion h with ⟨hw', part, hp', hreply⟩
          refine ⟨framed payload, part, hw'.trans hw, ?_, ?_⟩
          · rw [hp', hp]
            rfl
          · exact .written hfit (Frame.writing_of_write hframe) hreply
        · cases ho
        · cases ho

/-- Nothing moves when a client is closed. -/
theorem close_moves_nothing (client : Client ρ τ σ) (ht : client.stream.Tracks written taken)
    (s : State σ) :
    written (client.close s).stream = written s.stream ∧
      taken (client.close s).stream = taken s.stream := by
  by_cases hc : s.phase = .closed
  · rw [close_of_closed hc]
    exact ⟨rfl, rfl⟩
  · rw [close_of_open hc]
    exact ht.shutdown (Prod.eta _).symm

end Calls

end FramedIpc.Client
