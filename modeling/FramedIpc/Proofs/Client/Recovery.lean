import FramedIpc.Proofs.Client.Account
import FramedIpc.Proofs.Client.Openness
import FramedIpc.Proofs.Frame.Independence

/-!
# Failures That Leave No Trace

Two kinds of failure are no fault of the connection, and a client comes through
them as if they had not happened.

A request may be refused before the stream is called: the codec may make no
payload of it, or the payload may be longer than the limit or than a header can
say. The client is then the client that it was, and its stream the stream,
down to the calls that have been made on it. What may have changed is the
buffer in which frames are put together; `writeVia` and `sendVia` carry it
along, and no call depends on it (`answersVia_eq`).

And a whole frame may come in of which the codec makes nothing. It was taken
off the stream all the same, and the pending response with it, before anyone
looked into it. To say so takes two runs. They differ in the bytes of one
payload, and whatever the codec says of either, after the read they are one.

## Main definitions

* `Refuses`: The ways that a request is refused before the stream is called.
* `writeVia`, `sendVia`: A client that writes its frames through a buffer.
* `answersVia`: What calls on such a client answer.

## Theorems

* `write_of_refuses`, `send_of_refuses`: A refused request changes nothing.
* `answersVia_eq`: What the buffer holds makes no difference.
* `read_of_twins`: What a payload holds makes no difference afterwards.
* `recovers`: Both, in every state of a client.
-/

namespace FramedIpc.Client

open FramedIpc.Frame (Fits framed)

variable {ρ τ σ : Type}

/-- The ways that a client refuses a request before the stream is called, with
    the error that it answers. -/
inductive Refuses (client : Client ρ τ σ) (request : ρ) : Error → Prop where
  | unencoded {cause : Payload.Error} :
      client.codec.encode request = .error cause → Refuses client request (.codec cause)
  | overLimit {payload : Bytes} :
      client.codec.encode request = .ok payload → client.maxPayload < payload.length →
      Refuses client request (.frameTooLarge payload.length client.maxPayload)
  /-- The limit is looked at first. -/
  | overHeader {payload : Bytes} :
      client.codec.encode request = .ok payload → payload.length ≤ client.maxPayload →
      lengthBound ≤ payload.length →
      Refuses client request (.frameTooLarge payload.length (lengthBound - 1))

section Buffer

/-- Write a request through a buffer. -/
def writeVia (client : Client ρ τ σ) (request : ρ) (s : State σ) (scratch : Bytes) :
    Except Error Unit × State σ × Bytes :=
  match s.phase with
  | .closed => (.error .closed, s, scratch)
  | .awaiting => (.error .responsePending, s, scratch)
  | .idle =>
    match client.codec.encode request with
    | .error cause => (.error (.codec cause), s, scratch)
    | .ok payload =>
      match Frame.writeVia client.stream client.maxPayload payload scratch s.stream with
      | (.ok (), stream, left) => (.ok (), ⟨stream, .awaiting⟩, left)
      | (.error error, stream, left) =>
        (.error (.ofFrame error), ⟨stream, if error.isRefusal then .idle else .closed⟩, left)

/-- Write a request through a buffer and read its response. -/
def sendVia (client : Client ρ τ σ) (request : ρ) (s : State σ) (scratch : Bytes) :
    Except Error τ × State σ × Bytes :=
  match client.writeVia request s scratch with
  | (.ok (), s', left) => ((client.read s').1, (client.read s').2, left)
  | (.error error, s', left) => (.error error, s', left)

/-- What a call answers on a client with a buffer, and what it leaves. -/
def Call.via (client : Client ρ τ σ) (s : State σ) (scratch : Bytes) :
    Call ρ → Answer τ × State σ × Bytes
  | .send request =>
    (.heard (client.sendVia request s scratch).1, (client.sendVia request s scratch).2)
  | .write request =>
    (.wrote (client.writeVia request s scratch).1, (client.writeVia request s scratch).2)
  | .read => (.heard (client.read s).1, (client.read s).2, scratch)
  | .close => (.closed, client.close s, scratch)

/-- What calls answer that are made one after another on a client with a
    buffer. -/
def answersVia (client : Client ρ τ σ) : List (Call ρ) → State σ → Bytes → List (Answer τ)
  | [], _, _ => []
  | call :: calls, s, scratch =>
    (call.via client s scratch).1 ::
      answersVia client calls (call.via client s scratch).2.1 (call.via client s scratch).2.2

variable {client : Client ρ τ σ}

theorem writeVia_eq (client : Client ρ τ σ) (request : ρ) (s : State σ) (scratch : Bytes) :
    ∃ left, client.writeVia request s scratch =
      ((client.write request s).1, (client.write request s).2, left) := by
  rcases s with ⟨stream, phase⟩
  unfold writeVia write
  cases phase with
  | closed => exact ⟨scratch, rfl⟩
  | awaiting => exact ⟨scratch, rfl⟩
  | idle =>
      -- Only a payload gets as far as the buffer.
      rcases client.codec.encode request with cause | payload
      · exact ⟨scratch, rfl⟩
      rcases Frame.writeVia_eq client.stream client.maxPayload payload scratch stream with
        ⟨left, hvia⟩
      simp only [hvia]
      rcases Frame.write client.stream client.maxPayload payload stream with ⟨error | _, stream'⟩
      · exact ⟨left, rfl⟩
      · exact ⟨left, rfl⟩

theorem sendVia_eq (client : Client ρ τ σ) (request : ρ) (s : State σ) (scratch : Bytes) :
    ∃ left, client.sendVia request s scratch =
      ((client.send request s).1, (client.send request s).2, left) := by
  rcases writeVia_eq client request s scratch with ⟨left, hvia⟩
  rw [sendVia, send, hvia]
  rcases client.write request s with ⟨error | _, s'⟩
  · exact ⟨left, rfl⟩
  · exact ⟨left, rfl⟩

theorem Call.via_eq (client : Client ρ τ σ) (call : Call ρ) (s : State σ) (scratch : Bytes) :
    ∃ left, call.via client s scratch = (call.answer client s, call.after client s, left) := by
  cases call with
  | send request =>
      rcases sendVia_eq client request s scratch with ⟨left, h⟩
      exact ⟨left, by rw [Call.via, h]; rfl⟩
  | write request =>
      rcases writeVia_eq client request s scratch with ⟨left, h⟩
      exact ⟨left, by rw [Call.via, h]; rfl⟩
  | read => exact ⟨scratch, rfl⟩
  | close => exact ⟨scratch, rfl⟩

/-- What the buffer holds makes no difference to any call. -/
theorem answersVia_eq (calls : List (Call ρ)) (s : State σ) (scratch : Bytes) :
    answersVia client calls s scratch = answers client calls s := by
  induction calls generalizing s scratch with
  | nil => rfl
  | cons call calls ih =>
      rcases Call.via_eq client call s scratch with ⟨left, h⟩
      rw [answersVia, answers, h, ih]

end Buffer

variable {client : Client ρ τ σ}

/-- A refused request leaves an idle client, and its stream, as they are. -/
theorem write_of_refuses {request : ρ} {error : Error} {s : State σ} (hidle : s.phase = .idle)
    (h : client.Refuses request error) : client.write request s = (.error error, s) := by
  rcases s with ⟨stream, phase⟩
  cases hidle
  cases h with
  | unencoded he => simp only [write, he]
  | overLimit he hmax =>
      have hrefused := Frame.admission_eq_error_iff.mpr (Or.inl ⟨hmax, rfl⟩)
      simp only [write, he, Frame.write_of_refused hrefused]
      rfl
  | overHeader he hmax hbound =>
      have hrefused := Frame.admission_eq_error_iff.mpr (Or.inr ⟨hmax, hbound, rfl⟩)
      simp only [write, he, Frame.write_of_refused hrefused]
      rfl

/-- A send does not go on to read after such a request. -/
theorem send_of_refuses {request : ρ} {error : Error} {s : State σ} (hidle : s.phase = .idle)
    (h : client.Refuses request error) : client.send request s = (.error error, s) := by
  rw [send, write_of_refuses hidle h]

/-- Of two clients whose streams differ in the payload of one frame, both lose
    their connection to one error, or both make of their payload what the codec
    makes of it and are one and the same afterwards. -/
theorem read_of_twins {phase : Phase} {s s' : σ} {left right : Bytes}
    (hopen : phase ≠ .closed) (hfit : Fits client.maxPayload left)
    (ht : client.stream.Twins s (framed left) s' (framed right)) :
    (∃ error, (client.read ⟨s, phase⟩).1 = .error (.ofFrame error) ∧
        (client.read ⟨s', phase⟩).1 = .error (.ofFrame error)) ∨
      ∃ stream,
        client.read ⟨s, phase⟩ = (decodeResponse client.codec left, ⟨stream, .idle⟩) ∧
        client.read ⟨s', phase⟩ = (decodeResponse client.codec right, ⟨stream, .idle⟩) := by
  rcases hr : Frame.read client.stream client.maxPayload s with ⟨outcome, stream⟩
  rcases Frame.read_of_twins hfit ht hr with ⟨error, stream', rfl, hr'⟩ | ⟨rfl, hr'⟩
  · refine Or.inl ⟨error, ?_, ?_⟩
    · rw [read_of_error (s := ⟨s, phase⟩) hopen hr]
    · rw [read_of_error (s := ⟨s', phase⟩) hopen hr']
  · exact Or.inr ⟨stream, read_of_frame (s := ⟨s, phase⟩) hopen hr,
      read_of_frame (s := ⟨s', phase⟩) hopen hr'⟩

/-- A whole frame that the stream delivers is made of what the codec makes of
    it. -/
theorem read_of_delivers {phase : Phase} {s : σ} {payload rest : Bytes} (hopen : phase ≠ .closed)
    (hfit : Fits client.maxPayload payload)
    (hd : client.stream.Delivers s (framed payload ++ rest)) :
    (client.read ⟨s, phase⟩).1 = decodeResponse client.codec payload := by
  rcases hr : Frame.read client.stream client.maxPayload s with ⟨outcome, stream⟩
  have houtcome := (Frame.read_of_delivers hd hr).1
  rw [Frame.takeLast_of_frame (Frame.take_framed_append hfit rest)] at houtcome
  rw [houtcome] at hr
  rw [read_of_frame (s := ⟨s, phase⟩) hopen hr]

theorem decodeResponse_of_ok {codec : Codec ρ τ} {payload : Bytes} {response : τ}
    (h : codec.decode payload = .ok response) : decodeResponse codec payload = .ok response := by
  rw [decodeResponse, h]
  rfl

theorem decodeResponse_of_error {codec : Codec ρ τ} {payload : Bytes} {cause : Payload.Error}
    (h : codec.decode payload = .error cause) :
    decodeResponse codec payload = .error (.codec cause) := by
  rw [decodeResponse, h]
  rfl

theorem decode_of_decodeResponse {codec : Codec ρ τ} {payload : Bytes} {value : τ}
    (h : decodeResponse codec payload = .ok value) : codec.decode payload = .ok value := by
  rcases hdecode : codec.decode payload with cause | response
  · rw [decodeResponse_of_error hdecode] at h
    cases h
  · rw [decodeResponse_of_ok hdecode] at h
    rw [Except.ok.inj h]

/-- A client recovers from requests that are refused and from payloads that are
    no response.

    In every state in which nothing is pending, a write or a send of a refused
    request answers the error and leaves client and stream as they are, the
    notes of the calls on the stream included. The calls that follow, made
    through a buffer that may hold anything, answer what they would have
    answered without it.

    In every open state, if a read answers that a payload is no response, then
    a read on a stream that differs only in having a payload there that is one
    leaves the same client and the same stream, with nothing pending, so that
    the calls that follow answer alike. Where a stream delivers a whole frame
    within the limit of which the codec makes nothing, that is what a read
    answers. -/
theorem recovers (client : Client ρ τ σ) :
    (∀ (s : State (σ × Ledger)) (request : ρ) (error : Error),
      s.phase = .idle → client.Refuses request error →
        client.recorded.write request s = (.error error, s) ∧
        client.recorded.send request s = (.error error, s) ∧
        ∀ (calls : List (Call ρ)) (scratch : Bytes),
          answersVia client.recorded (.write request :: calls) s scratch =
            .wrote (.error error) :: answers client.recorded calls s ∧
          answersVia client.recorded (.send request :: calls) s scratch =
            .heard (.error error) :: answers client.recorded calls s) ∧
    ∀ (phase : Phase) (s : σ) (left : Bytes), phase ≠ .closed → Fits client.maxPayload left →
      (∀ (s' : σ) (right : Bytes) (cause : Payload.Error) (response : τ),
        client.stream.Twins s (framed left) s' (framed right) →
        client.codec.decode right = .ok response →
        (client.read ⟨s, phase⟩).1 = .error (.codec cause) →
          ∃ after, after.phase = .idle ∧
            client.read ⟨s, phase⟩ = (.error (.codec cause), after) ∧
            client.read ⟨s', phase⟩ = (.ok response, after) ∧
            ∀ calls : List (Call ρ),
              answers client (.read :: calls) ⟨s, phase⟩ =
                .heard (.error (.codec cause)) :: answers client calls after ∧
              answers client (.read :: calls) ⟨s', phase⟩ =
                .heard (.ok response) :: answers client calls after) ∧
      ∀ (rest : Bytes) (cause : Payload.Error),
        client.stream.Delivers s (framed left ++ rest) →
        client.codec.decode left = .error cause →
          (client.read ⟨s, phase⟩).1 = .error (.codec cause) := by
  refine ⟨?_, ?_⟩
  · intro s request error hidle h
    -- A ledger beside the stream makes a refusal no other.
    have hrefuses : client.recorded.Refuses request error := by
      cases h with
      | unencoded he => exact .unencoded he
      | overLimit he hmax => exact .overLimit he hmax
      | overHeader he hmax hbound => exact .overHeader he hmax hbound
    have hwrite := write_of_refuses hidle hrefuses
    have hsend := send_of_refuses hidle hrefuses
    refine ⟨hwrite, hsend, fun calls scratch => ⟨?_, ?_⟩⟩
    · rw [answersVia_eq, answers, Call.answer, Call.after, hwrite]
    · rw [answersVia_eq, answers, Call.answer, Call.after, hsend]
  · intro phase s left hopen hfit
    refine ⟨?_, ?_⟩
    · intro s' right cause response ht hdecode hanswer
      rcases read_of_twins hopen hfit ht with ⟨error, hleft, _⟩ | ⟨stream, hread, hread'⟩
      · -- A connection that is lost is told of otherwise.
        rw [hleft] at hanswer
        exact absurd (Except.error.inj hanswer) (ofFrame_ne_codec error cause)
      rw [hread] at hanswer
      have hfailed : decodeResponse client.codec left = .error (.codec cause) := hanswer
      rw [hfailed] at hread
      rw [decodeResponse_of_ok hdecode] at hread'
      refine ⟨_, rfl, hread, hread', fun calls => ⟨?_, ?_⟩⟩
      · rw [answers, Call.answer, Call.after, hread]
      · rw [answers, Call.answer, Call.after, hread']
    · intro rest cause hd hdecode
      rw [read_of_delivers hopen hfit hd, decodeResponse_of_error hdecode]

/-- A client for bytes on a script that takes no more than four of them, and
    none that begin with a zero. -/
def picky : Client Bytes Bytes Stream.Script :=
  ⟨⟨"picky", fun bs => if bs.head? = some 0 then .error .bincode else .ok bs,
    fun bs => if bs.head? = some 0 then .error .bincode else .ok bs⟩, Stream.Script.stream, 4⟩

/-- A script that gives one frame with a byte in it, and then another. -/
def twoFrames (byte : UInt8) : Stream.Script :=
  ⟨[], [.chunk [0, 0], .fault (.bare .interrupted), .chunk [0, 1, byte], .chunk [0, 0, 0, 1, 7]],
    [], [], []⟩

/-- A request that is refused is forgotten at once, and a zero that came in
    leaves the client where a one would have left it. -/
theorem recovers_picky :
    picky.recorded.write [1, 2, 3, 4, 5] (.fresh (twoFrames 0, .blank)) =
        (.error (.frameTooLarge 5 4), .fresh (twoFrames 0, .blank)) ∧
      (picky.read ⟨twoFrames 0, .awaiting⟩).1 = .error (.codec .bincode) ∧
      ∃ after, picky.read ⟨twoFrames 0, .awaiting⟩ = (.error (.codec .bincode), after) ∧
        picky.read ⟨twoFrames 1, .awaiting⟩ = (.ok [1], after) := by
  have hdelivers : picky.stream.Delivers (twoFrames 0) (framed [0] ++ framed [7]) :=
    @Stream.Script.delivers (twoFrames 0) (by decide)
  have htwins : picky.stream.Twins (twoFrames 0) (framed [0]) (twoFrames 1) (framed [1]) :=
    @Stream.Script.twins _ _ _ _ (framed [7]) rfl rfl rfl rfl
  have hzero := ((recovers picky).2 .awaiting (twoFrames 0) [0] (by decide) (by decide)).2
    (framed [7]) .bincode hdelivers rfl
  rcases ((recovers picky).2 .awaiting (twoFrames 0) [0] (by decide) (by decide)).1
    (twoFrames 1) [1] .bincode [1] htwins rfl hzero with ⟨after, _, hread, hread', _⟩
  refine ⟨?_, hzero, after, hread, hread'⟩
  exact ((recovers picky).1 (.fresh (twoFrames 0, .blank)) [1, 2, 3, 4, 5] (.frameTooLarge 5 4)
    rfl (@Refuses.overLimit _ _ _ picky _ [1, 2, 3, 4, 5] rfl (by decide))).1

end FramedIpc.Client
