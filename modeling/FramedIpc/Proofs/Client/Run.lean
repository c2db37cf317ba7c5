import FramedIpc.Client.Blocking
import FramedIpc.Proofs.Frame.Exchange

/-!
# Runs of Clients

Calls are made on a client in any order, and the order is up to its user. What
they do to the stream is made of two things only, writing a request and
reading a response, which may be called halves of an exchange: a send is one
half and, if that went well, the other. A run keeps the halves that were made,
with how each ended, so that what a stream has seen can be compared with what
the user was told.

The ways that each half can go are listed (`WriteHalf`, `ReadHalf`), and
nothing after this module looks into the calls again. What each half keeps, and
a close keeps, is kept by every run (`HalvesKeep.run`).

## Main definitions

* `Call`, `Answer`: A call on a client, and what it answers.
* `Half`: Half of an exchange, with how it ended.
* `answers`: What calls answer, one after another.
* `run`: Calls one after another.
* `requests`: The requests that were written.
* `responses`: What was made of the responses that were read.

## Theorems

* `send_eq`: A send gives what its last half gave.
* `writeHalf_of_write`: The ways that writing a request can go.
* `readHalf_of_read`: The ways that reading a response can go.
* `close_of_closed`, `close_of_open`: The ways that a close can go.
* `run_append`: A run of more calls goes on from where the first have led.
* `HalvesKeep.run`: What every half keeps is kept by every run.
-/

namespace FramedIpc.Client

variable {ρ τ σ : Type}

/-- A call on a client. -/
inductive Call (ρ : Type) where
  | send (request : ρ)
  | write (request : ρ)
  | read
  | close

/-- What a call answers. -/
inductive Answer (τ : Type) where
  | wrote (outcome : Except Error Unit)
  | heard (outcome : Except Error τ)
  | closed

/-- Half of an exchange, with how it ended. -/
inductive Half (ρ τ : Type) where
  | wrote (request : ρ) (outcome : Except Error Unit)
  | heard (outcome : Except Error τ)

/-- The request of a half that has written one. -/
def Half.request? : Half ρ τ → Option ρ
  | .wrote request (.ok ()) => some request
  | _ => none

/-- What a half made of the response that it has read. A payload that is no
    response was read all the same. -/
def Half.response? : Half ρ τ → Option (Except Error τ)
  | .heard (.ok response) => some (.ok response)
  | .heard (.error (.codec cause)) => some (.error (.codec cause))
  | _ => none

/-- The requests that were written. -/
def requests (history : List (Half ρ τ)) : List ρ :=
  history.filterMap Half.request?

/-- What was made of the responses that were read. -/
def responses (history : List (Half ρ τ)) : List (Except Error τ) :=
  history.filterMap Half.response?

/-- What a call on a client answers. -/
def Call.answer (client : Client ρ τ σ) (s : State σ) : Call ρ → Answer τ
  | .send request => .heard (client.send request s).1
  | .write request => .wrote (client.write request s).1
  | .read => .heard (client.read s).1
  | .close => .closed

/-- The halves that a call makes. -/
def Call.halves (client : Client ρ τ σ) (s : State σ) : Call ρ → List (Half ρ τ)
  | .send request =>
    match client.write request s with
    | (.ok (), s') => [.wrote request (.ok ()), .heard (client.read s').1]
    | (.error error, _) => [.wrote request (.error error)]
  | .write request => [.wrote request (client.write request s).1]
  | .read => [.heard (client.read s).1]
  | .close => []

/-- The state after a call. -/
def Call.after (client : Client ρ τ σ) (s : State σ) : Call ρ → State σ
  | .send request => (client.send request s).2
  | .write request => (client.write request s).2
  | .read => (client.read s).2
  | .close => client.close s

/-- What calls answer that are made one after another. -/
def answers (client : Client ρ τ σ) : List (Call ρ) → State σ → List (Answer τ)
  | [], _ => []
  | call :: calls, s => call.answer client s :: answers client calls (call.after client s)

/-- Calls one after another: the halves that they make, and the state after
    the last. -/
def run (client : Client ρ τ σ) : List (Call ρ) → State σ → List (Half ρ τ) × State σ
  | [], s => ([], s)
  | call :: calls, s =>
    (call.halves client s ++ (run client calls (call.after client s)).1,
      (run client calls (call.after client s)).2)

/-- The ways that writing a request can go. It may come at the wrong time, be
    no payload, or be refused, none of which touches the stream; the frame may
    be broken off, which closes the client; or it may be written. -/
inductive WriteHalf (client : Client ρ τ σ) (request : ρ) (s : State σ) :
    Except Error Unit → State σ → Prop where
  | closed : s.phase = .closed → WriteHalf client request s (.error .closed) s
  | pending : s.phase = .awaiting → WriteHalf client request s (.error .responsePending) s
  | unencoded {cause : Payload.Error} :
      s.phase = .idle → client.codec.encode request = .error cause →
      WriteHalf client request s (.error (.codec cause)) s
  | refused {payload : Bytes} {error : Frame.Error} :
      s.phase = .idle → client.codec.encode request = .ok payload →
      Frame.write client.stream client.maxPayload payload s.stream = (.error error, s.stream) →
      error.isRefusal = true → WriteHalf client request s (.error (.ofFrame error)) s
  | broken {payload : Bytes} {error : Frame.Error} {stream : σ} :
      s.phase = .idle → client.codec.encode request = .ok payload →
      Frame.write client.stream client.maxPayload payload s.stream = (.error error, stream) →
      error.isRefusal = false →
      WriteHalf client request s (.error (.ofFrame error)) ⟨stream, .closed⟩
  | written {payload : Bytes} {stream : σ} :
      s.phase = .idle → client.codec.encode request = .ok payload →
      Frame.write client.stream client.maxPayload payload s.stream = (.ok (), stream) →
      WriteHalf client request s (.ok ()) ⟨stream, .awaiting⟩

/-- The ways that reading a response can go. The client may be closed; the
    frame may not come whole, which closes it; or it may come. -/
inductive ReadHalf (client : Client ρ τ σ) (s : State σ) : Except Error τ → State σ → Prop where
  | closed : s.phase = .closed → ReadHalf client s (.error .closed) s
  | broken {error : Frame.Error} {stream : σ} :
      s.phase ≠ .closed →
      Frame.read client.stream client.maxPayload s.stream = (.error error, stream) →
      ReadHalf client s (.error (.ofFrame error)) ⟨stream, .closed⟩
  | answered {payload : Bytes} {stream : σ} :
      s.phase ≠ .closed →
      Frame.read client.stream client.maxPayload s.stream = (.ok payload, stream) →
      ReadHalf client s (decodeResponse client.codec payload) ⟨stream, .idle⟩

theorem requests_concat_none {half : Half ρ τ} (h : half.request? = none)
    (history : List (Half ρ τ)) : requests (history ++ [half]) = requests history := by
  rw [requests, requests, List.filterMap_append, List.filterMap_cons_none h, List.filterMap_nil,
    List.append_nil]

theorem requests_concat_some {half : Half ρ τ} {request : ρ} (h : half.request? = some request)
    (history : List (Half ρ τ)) :
    requests (history ++ [half]) = requests history ++ [request] := by
  rw [requests, requests, List.filterMap_append, List.filterMap_cons_some h, List.filterMap_nil]

theorem responses_concat_none {half : Half ρ τ} (h : half.response? = none)
    (history : List (Half ρ τ)) : responses (history ++ [half]) = responses history := by
  rw [responses, responses, List.filterMap_append, List.filterMap_cons_none h,
    List.filterMap_nil, List.append_nil]

theorem responses_concat_some {half : Half ρ τ} {response : Except Error τ}
    (h : half.response? = some response) (history : List (Half ρ τ)) :
    responses (history ++ [half]) = responses history ++ [response] := by
  rw [responses, responses, List.filterMap_append, List.filterMap_cons_some h,
    List.filterMap_nil]

/-- A payload is told of as a response, whatever the codec makes of it. -/
theorem response?_decodeResponse (codec : Codec ρ τ) (payload : Bytes) :
    (Half.heard (decodeResponse codec payload) : Half ρ τ).response? =
      some (decodeResponse codec payload) := by
  unfold decodeResponse
  rcases codec.decode payload with cause | response
  · rfl
  · rfl

theorem response?_ofFrame (error : Frame.Error) :
    (Half.heard (.error (.ofFrame error)) : Half ρ τ).response? = none := by
  cases error with
  | payloadTooLarge => rfl
  | lengthOverflow => rfl
  | io => rfl
  | connectionClosed => rfl
  | truncated => rfl

theorem ofFrame_ne_codec (error : Frame.Error) (cause : Payload.Error) :
    Error.ofFrame error ≠ .codec cause := by
  cases error with
  | payloadTooLarge => exact Error.noConfusion
  | lengthOverflow => exact Error.noConfusion
  | io => exact Error.noConfusion
  | connectionClosed => exact Error.noConfusion
  | truncated => exact Error.noConfusion

variable {client : Client ρ τ σ}

/-- A send gives what its last half gave. -/
theorem send_eq (request : ρ) (s : State σ) :
    client.send request s = match client.write request s with
      | (.ok (), s') => client.read s'
      | (.error error, s') => (.error error, s') := rfl

theorem writeHalf_of_write {request : ρ} {s s' : State σ} {outcome : Except Error Unit}
    (h : client.write request s = (outcome, s')) : WriteHalf client request s outcome s' := by
  rcases s with ⟨stream, phase⟩
  unfold write at h
  cases phase with
  | closed =>
      cases h
      exact .closed rfl
  | awaiting =>
      cases h
      exact .pending rfl
  | idle =>
      simp only [] at h
      rcases he : client.codec.encode request with cause | payload
      · rw [he] at h
        cases h
        exact .unencoded rfl he
      rw [he] at h
      simp only [] at h
      rcases hw : Frame.write client.stream client.maxPayload payload stream with
        ⟨error | _, stream'⟩
      · rw [hw] at h
        cases h
        by_cases hr : error.isRefusal = true
        · -- A refused frame leaves the stream as it was.
          have hsame := Frame.eq_of_write_refusal hw hr
          rw [hsame] at hw ⊢
          rw [if_pos hr]
          exact .refused rfl he hw hr
        · rw [if_neg hr]
          exact .broken rfl he hw (Bool.not_eq_true _ ▸ hr)
      · rw [hw] at h
        cases h
        exact .written rfl he hw

theorem read_of_frame {s : State σ} {payload : Bytes} {stream : σ} (hopen : s.phase ≠ .closed)
    (hr : Frame.read client.stream client.maxPayload s.stream = (.ok payload, stream)) :
    client.read s = (decodeResponse client.codec payload, ⟨stream, .idle⟩) := by
  unfold read
  split
  · exact absurd ‹_› hopen
  · rw [hr]

theorem read_of_error {s : State σ} {error : Frame.Error} {stream : σ}
    (hopen : s.phase ≠ .closed)
    (hr : Frame.read client.stream client.maxPayload s.stream = (.error error, stream)) :
    client.read s = (.error (.ofFrame error), ⟨stream, .closed⟩) := by
  unfold read
  split
  · exact absurd ‹_› hopen
  · rw [hr]

theorem readHalf_of_read {s s' : State σ} {outcome : Except Error τ}
    (h : client.read s = (outcome, s')) : ReadHalf client s outcome s' := by
  by_cases hc : s.phase = .closed
  · unfold read at h
    rw [hc] at h
    cases h
    exact .closed hc
  rcases hr : Frame.read client.stream client.maxPayload s.stream with
    ⟨error | payload, stream'⟩
  · rw [read_of_error hc hr] at h
    cases h
    exact .broken hc hr
  · rw [read_of_frame hc hr] at h
    cases h
    exact .answered hc hr

theorem close_of_closed {s : State σ} (hc : s.phase = .closed) : client.close s = s := by
  rw [close, hc]

theorem close_of_open {s : State σ} (hopen : s.phase ≠ .closed) :
    client.close s = ⟨(client.stream.shutdown s.stream).2, .closed⟩ := by
  unfold close
  split
  · exact absurd ‹_› hopen
  · rfl

/-- A run of more calls goes on from where the first have led. -/
theorem run_append (client : Client ρ τ σ) (calls more : List (Call ρ)) (s : State σ) :
    run client (calls ++ more) s =
      ((run client calls s).1 ++ (run client more (run client calls s).2).1,
        (run client more (run client calls s).2).2) := by
  induction calls generalizing s with
  | nil => rfl
  | cons call calls ih => rw [List.cons_append, run, run, ih, List.append_assoc]

/-- A property of the halves that were made and of the state after them, kept
    by each half and by a close. -/
structure HalvesKeep (client : Client ρ τ σ) (P : List (Half ρ τ) → State σ → Prop) : Prop where
  write : ∀ {history s request outcome s'}, P history s →
    client.write request s = (outcome, s') → P (history ++ [.wrote request outcome]) s'
  read : ∀ {history s outcome s'}, P history s →
    client.read s = (outcome, s') → P (history ++ [.heard outcome]) s'
  close : ∀ {history s}, P history s → P history (client.close s)

theorem HalvesKeep.call {P : List (Half ρ τ) → State σ → Prop} (hk : HalvesKeep client P)
    {history : List (Half ρ τ)} {s : State σ} (h : P history s) (call : Call ρ) :
    P (history ++ call.halves client s) (call.after client s) := by
  cases call with
  | send request =>
      simp only [Call.halves, Call.after, send_eq]
      rcases hw : client.write request s with ⟨error | _, s'⟩
      · exact hk.write h hw
      · -- The second half is made on the state that the first has left.
        have hread := hk.read (hk.write h hw) (Prod.eta (client.read s')).symm
        rw [List.append_assoc] at hread
        exact hread
  | write request => exact hk.write h (Prod.eta _).symm
  | read => exact hk.read h (Prod.eta _).symm
  | close =>
      simp only [Call.halves, Call.after, List.append_nil]
      exact hk.close h

/-- What every half keeps is kept by every run. -/
theorem HalvesKeep.run {P : List (Half ρ τ) → State σ → Prop} (hk : HalvesKeep client P)
    {history : List (Half ρ τ)} {s : State σ} (h : P history s) (calls : List (Call ρ)) :
    P (history ++ (run client calls s).1) (run client calls s).2 := by
  induction calls generalizing history s with
  | nil =>
      rw [Client.run, List.append_nil]
      exact h
  | cons call calls ih =>
      -- The history of the rest begins with the halves of the first call.
      rw [Client.run, ← List.append_assoc]
      exact ih (hk.call h call)

section Keeps

/-! What the calls on the stream keep is kept by the calls on the client. -/

variable {P : σ → Prop}

theorem keeps_write (hk : client.stream.KeepsWriting P) {request : ρ} {s s' : State σ}
    {outcome : Except Error Unit} (h : P s.stream)
    (hw : client.write request s = (outcome, s')) : P s'.stream := by
  cases writeHalf_of_write hw with
  | closed _ => exact h
  | pending _ => exact h
  | unencoded _ _ => exact h
  | refused _ _ _ _ => exact h
  | broken _ _ hframe _ => exact Frame.keeps_write hk h hframe
  | written _ _ hframe => exact Frame.keeps_write hk h hframe

theorem keeps_read (hk : client.stream.KeepsReading P) {s s' : State σ}
    {outcome : Except Error τ} (h : P s.stream) (hr : client.read s = (outcome, s')) :
    P s'.stream := by
  cases readHalf_of_read hr with
  | closed _ => exact h
  | broken _ hframe => exact Frame.keeps_read hk h hframe
  | answered _ hframe => exact Frame.keeps_read hk h hframe

theorem keeps_send (hk : client.stream.Keeps P) {request : ρ} {s s' : State σ}
    {outcome : Except Error τ} (h : P s.stream) (hsend : client.send request s = (outcome, s')) :
    P s'.stream := by
  rw [send_eq] at hsend
  rcases hwrite : client.write request s with ⟨error | _, s₁⟩
  · rw [hwrite] at hsend
    cases hsend
    exact keeps_write hk.writing h hwrite
  · rw [hwrite] at hsend
    exact keeps_read hk.reading (keeps_write hk.writing h hwrite) hsend

theorem keeps_close (hk : client.stream.Keeps P) {s : State σ} (h : P s.stream) :
    P (client.close s).stream := by
  by_cases hc : s.phase = .closed
  · rw [close_of_closed hc]
    exact h
  · rw [close_of_open hc]
    exact hk.shutdown h (Prod.eta _).symm

end Keeps

end FramedIpc.Client
