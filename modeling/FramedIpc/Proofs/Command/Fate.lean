import FramedIpc.Proofs.Client.Talk
import FramedIpc.Proofs.Command.Refusal
import FramedIpc.Proofs.Command.View
import FramedIpc.Proofs.Dial.Verdict
import FramedIpc.Proofs.Payload.Printing

/-!
# The Fate of a Request

A request that is sent from the command line goes through four layers, and each
can be the last. What was given may be refused, and then nothing is done. The
dial may fail, and then no byte has moved. The socket may not take the settings,
with as little effect. From then on it is the talk of one client over one
stream. `Fate` lists these ways with what a recorded host has noted of each;
every request that comes to an end has met one of them (`fate_of_request`), and
nothing after this module looks into the layers again.

## Main definitions

* `Fate`: The ways that a request can end, with what was done until then.

## Theorems

* `connect_cases`: What a connection can come to.
* `talk_of_exchange`: What an exchange on an open socket can come to.
* `fate_of_request`: What a request can come to.
-/

namespace FramedIpc.Command

open FramedIpc.Client (Talk)
open FramedIpc.Dial (Deed Verdict)
open Payload

variable {σ : Type}

/-- The ways that a request can end that took the time `spent`, with what was
    done and moved until then, and what comes of it. -/
inductive Fate (host : Host σ) (options : SendOptions) (spent : Span) :
    List (Deed Unit) → Ledger → Except Failure Response → Prop where
  | refused {failure : Failure} :
      Refused options → failure.code = .usage →
      Fate host options spent [] .blank (.error failure)
  | undialled {request : Request} {endpoint : Endpoint} {cause : Dial.Error}
      {deeds : List (Deed Unit)} :
      Understood options request → Endpoint.resolve request.name = .ok endpoint →
      Verdict request.config.retry endpoint spent deeds (.error cause) →
      Fate host options spent deeds .blank
        (.error (.ofClient "connect failed" (.connect cause)))
  | unset {request : Request} {endpoint : Endpoint} {before : List (Deed Unit)} {s : σ}
      {fault : Fault} :
      Understood options request → Endpoint.resolve request.name = .ok endpoint →
      (host.socket.configure request.config.frame s).1 = .error fault →
      Fate host options spent (before ++ [.attempt (.ok ())]) .blank
        (.error (.ofClient "connect failed" (.transport fault)))
  | talked {request : Request} {endpoint : Endpoint} {before : List (Deed Unit)}
      {payload : Bytes} {s : (σ × List (Deed Unit)) × Ledger} {ledger : Ledger}
      {answer : Except Client.Error Datum} :
      Understood options request → Endpoint.resolve request.name = .ok endpoint →
      Json.encode request.value = .ok payload →
      Talk (host.recorded.client codec request.config) payload s ledger.written ledger.taken
        answer →
      Fate host options spent (before ++ [.attempt (.ok ())]) ledger
        ((answer.mapError (.ofClient "request failed")).map fun value => ⟨endpoint, value, spent⟩)

variable {host : Host σ}

section Connecting

/-- A ledger that stands beside a world is not seen by a dial. -/
theorem recorded_world_shows (host : Host σ) (ledger : Ledger) :
    Dial.Shows host.recorded.world host.world.recorded fun s => (s, ledger) :=
  ⟨fun _ _ => rfl, fun _ => rfl, fun _ _ => rfl, fun _ => rfl⟩

theorem dialFor_recorded (host : Host σ) (dialer : Dialer) (endpoint : Endpoint) (rounds : Nat)
    (s : σ × List (Deed Unit)) (ledger : Ledger) :
    dialer.dialFor host.recorded.world endpoint rounds (s, ledger) =
      (dialer.dialFor host.world.recorded endpoint rounds s).map
        (Dial.Run.seen fun s => (s, ledger)) :=
  (Dial.dialFrom_of_shows (recorded_world_shows host ledger) dialer endpoint _ rounds 0 s).symm

/-- The settings of a socket are put on it beside the records. -/
theorem configure_recorded (host : Host σ) (config : Frame.Config) (s : σ)
    (deeds : List (Deed Unit)) (ledger : Ledger) :
    host.recorded.socket.configure config ((s, deeds), ledger) =
      ((host.socket.configure config s).1,
        (((host.socket.configure config s).2, deeds), ledger)) := by
  unfold Socket.configure Host.recorded
  simp only []
  rcases host.socket.limitReads config.readTimeout s with ⟨fault | _, s'⟩
  · rfl
  · rfl

/-- What a connection can come to: the dial fails, or its last attempt
    succeeds and the socket refuses the settings or takes them. -/
theorem connect_cases {config : Client.Config} {endpoint : Endpoint} {rounds : Nat} {s s' : σ}
    {deeds : List (Deed Unit)} {ledger : Ledger} {result : Except Client.Error Unit}
    (h : host.recorded.connect config false endpoint rounds ((s, []), .blank) =
      some (result, ((s', deeds), ledger))) :
    ledger = .blank ∧
      ((∃ cause, result = .error (.connect cause) ∧
          Verdict config.retry endpoint
            (Dial.elapsed (host.world.now s) (host.world.now s')) deeds (.error cause)) ∨
        ∃ before, deeds = before ++ [.attempt (.ok ())] ∧
          ((∃ fault s₁, result = .error (.transport fault) ∧
              (host.socket.configure config.frame s₁).1 = .error fault) ∨
            result = .ok ())) := by
  unfold Host.connect at h
  rw [dialFor_recorded] at h
  rcases hdial : Dialer.dialFor host.world.recorded ⟨config.retry, false⟩ endpoint rounds (s, [])
    with _ | ⟨opened, events, s₁, record⟩
  · rw [hdial] at h
    cases h
  -- The command has nothing to call a dial off with.
  have hverdict := Dial.verdict_of_dialFor rfl hdial
  rw [hdial] at h
  rcases opened with cause | _
  · cases h
    exact ⟨rfl, Or.inl ⟨cause, rfl, hverdict⟩⟩
  cases hverdict with
  | opened hrecord =>
      simp only [Option.map_some, Dial.Run.seen, configure_recorded] at h
      rcases hconfigure : host.socket.configure config.frame s₁ with ⟨fault | _, s₂⟩
      · rw [hconfigure] at h
        cases h
        exact ⟨rfl, Or.inr ⟨_, hrecord, Or.inl ⟨fault, s₁, rfl, by rw [hconfigure]⟩⟩⟩
      · rw [hconfigure] at h
        cases h
        exact ⟨rfl, Or.inr ⟨_, hrecord, Or.inr rfl⟩⟩

end Connecting

section Exchanging

/-- No call on the socket touches the record of the dial. -/
theorem recorded_keeps (host : Host σ) (deeds : List (Deed Unit)) :
    host.recorded.socket.stream.Keeps fun s => s.1.2 = deeds := by
  constructor
  · rintro _ _ _ _ hs ⟨⟩
    exact hs
  · rintro _ _ _ _ hs ⟨⟩
    exact hs
  · rintro _ _ _ hs ⟨⟩
    exact hs
  · rintro _ _ _ hs ⟨⟩
    exact hs

theorem encode_codec {value : Datum} {payload : Bytes} (h : Json.encode value = .ok payload) :
    codec.encode value = .ok payload := by
  simp only [codec, Format.codec, Format.encode, h]
  rfl

/-- What an exchange on an open socket can come to. -/
theorem talk_of_exchange {request : Request} {payload : Bytes} {s s' : σ}
    {deeds deeds' : List (Deed Unit)} {ledger : Ledger} {result : Except Failure Datum}
    (hencode : Json.encode request.value = .ok payload)
    (h : host.recorded.exchange request ((s, deeds), .blank) = (result, ((s', deeds'), ledger))) :
    deeds' = deeds ∧ ∃ answer,
      Talk (host.recorded.client codec request.config) payload ((s, deeds), .blank)
        ledger.written ledger.taken answer ∧
      result = answer.mapError (.ofClient "request failed") := by
  have ht := Stream.recorded_tracks (host.socket.stream.beside (List (Deed Unit)))
  have hk := recorded_keeps host deeds
  unfold Host.exchange at h
  rcases hsend : (host.recorded.client codec request.config).send request.value
    (.fresh ((s, deeds), .blank)) with ⟨answer, state⟩
  rcases Client.talk_of_send ht (encode_codec hencode) hsend with ⟨out, back, hout, hback, htalk⟩
  have hdeeds : state.stream.1.2 = deeds :=
    @Client.keeps_send _ _ _ (host.recorded.client codec request.config) _ hk _ _ _ _ rfl hsend
  have hout' : state.stream.2.written = out := hout
  have hback' : state.stream.2.taken = back := hback
  rw [← hout', ← hback'] at htalk
  simp only [hsend] at h
  rcases answer with error | response
  · rcases Prod.mk.inj h with ⟨hresult, hstate⟩
    rw [hstate] at hdeeds htalk
    exact ⟨hdeeds, _, htalk, hresult.symm⟩
  · rcases Prod.mk.inj h with ⟨hresult, hstate⟩
    -- The close that follows a response is noted, but adds no byte.
    rcases Client.close_moves_nothing (host.recorded.client codec request.config) ht state
      with ⟨hwritten, htaken⟩
    have hdeeds' := @Client.keeps_close _ _ _ (host.recorded.client codec request.config) _ hk _ hdeeds
    rw [hstate] at hwritten htaken hdeeds'
    rw [← hwritten, ← htaken] at htalk
    exact ⟨hdeeds', _, htalk, hresult.symm⟩

end Exchanging

/-- What a request was understood to ask for has a payload: what was read from
    JSON can be written in it. -/
theorem exists_encode {options : SendOptions} {request : Request}
    (h : Understood options request) : ∃ payload, Json.encode request.value = .ok payload := by
  rcases Json.prints_of_decode h.value .line with ⟨text, htext⟩
  exact ⟨Text.utf8Chars text, by rw [Json.encode, htext]; rfl⟩

/-- What a request can come to that was understood. -/
theorem fate_of_request {options : SendOptions} {request : Request} {rounds : Nat} {s s' : σ}
    {deeds : List (Deed Unit)} {ledger : Ledger} {result : Except Failure Response}
    (hunderstood : Understood options request)
    (h : host.recorded.request request rounds ((s, []), .blank) =
      some (result, ((s', deeds), ledger))) :
    Fate host options (Dial.elapsed (host.world.now s) (host.world.now s')) deeds ledger result := by
  unfold Host.request Host.connectName at h
  rcases hresolve : Endpoint.resolve request.name with cause | endpoint
  · rw [hresolve] at h
    cases h
    exact .refused (.path hunderstood.name hresolve) rfl
  rw [hresolve] at h
  simp only [Option.map_map] at h
  rcases Option.map_eq_some_iff.mp h with ⟨⟨opened, ⟨s₁, record⟩, noted⟩, hconnect, hrest⟩
  rcases connect_cases hconnect with ⟨rfl, hopened⟩
  simp only [Function.comp] at hrest
  rcases hopened with
    ⟨cause, rfl, hverdict⟩ | ⟨before, rfl, ⟨fault, s₂, rfl, hconfigure⟩ | rfl⟩
  · cases hrest
    exact .undialled hunderstood hresolve hverdict
  · cases hrest
    exact .unset hunderstood hresolve hconfigure
  -- The connection is open and the ledger blank, so what the ledger holds in
  -- the end is what this exchange has moved.
  rcases exists_encode hunderstood with ⟨payload, hencode⟩
  rcases hexchange : host.recorded.exchange request ((s₁, before ++ [.attempt (.ok ())]), .blank)
    with ⟨answered, ⟨s₂, deeds'⟩, ledger'⟩
  rcases talk_of_exchange hencode hexchange with ⟨rfl, answer, htalk, rfl⟩
  simp only [Except.map, hexchange] at hrest
  rcases answer with error | value
  · cases hrest
    exact .talked hunderstood hresolve hencode htalk
  · cases hrest
    exact .talked hunderstood hresolve hencode htalk

end FramedIpc.Command
