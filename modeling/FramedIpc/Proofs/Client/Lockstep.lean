import FramedIpc.Client.Polled
import FramedIpc.Proofs.Client.Account
import FramedIpc.Proofs.Client.Openness
import FramedIpc.Proofs.Frame.Transport

/-!
# Clients in Lockstep

A client that waits and one that polls keep to the same rules, but almost
nothing of what they do to a stream is the same. One reads a header and then a
payload; the other reads ahead whatever there is and looks for frames in it.
One writes a frame and forgets it; the other holds it in a buffer until it has
gone out. Over streams that serve the same bytes none of this shows. Call by
call the answers are the same, and so are the bytes that have gone out, and
whether the client is closed or awaits a response.

What the two have in common is not a state but a row of bytes, those that are
to come in: the one finds all of them in its stream, the other has some in its
buffer already. `Abreast` says that, and that no frame is half out. Every call
keeps it while the clients are open, and clients that are closed are alike
whatever is left in their streams.

## Main definitions

* `Client.View`: What a user sees after a call.
* `Client.views`, `PolledClient.views`: What is seen of calls one after
  another.
* `Client.polling`: The same client on a polled stream.
* `Abreast`: The two clients stand at the same place.

## Theorems

* `Abreast.write`, `Abreast.read`, `Abreast.send`: Each call keeps them there.
* `Abreast.views`: So does every run.
* `views_eq_of_serves`: Over streams that serve the same bytes the two clients
  cannot be told apart.
-/

namespace FramedIpc

open FramedIpc.Frame (Fits framed)

namespace Client

variable {ρ τ σ κ : Type}

/-- What is seen after a call: its answer, if there was patience enough to
    have it; the bytes that have gone out; and where the exchange stands, which
    says whether the client is closed and whether a response is pending. -/
structure View (τ : Type) where
  answer : Option (Answer τ)
  written : Bytes
  phase : Phase

/-- What is seen of calls one after another. -/
def views (client : Client ρ τ σ) : List (Call ρ) → State (σ × Ledger) → List (View τ)
  | [], _ => []
  | call :: calls, s =>
    ⟨some (call.answer client.recorded s), (call.after client.recorded s).stream.2.written,
      (call.after client.recorded s).phase⟩ ::
      views client calls (call.after client.recorded s)

/-- The same client on a polled stream. -/
def polling (client : Client ρ τ σ) (io : PolledStream κ) : PolledClient ρ τ κ :=
  ⟨client.codec, io, client.maxPayload⟩

theorem views_of_closed (client : Client ρ τ σ) (calls : List (Call ρ))
    {s : State (σ × Ledger)} (hc : s.phase = .closed) :
    client.views calls s =
      calls.map fun call => ⟨some call.turnedAway, s.stream.2.written, .closed⟩ := by
  induction calls with
  | nil => rfl
  | cons call calls ih =>
      rw [views, after_of_closed call hc, answer_of_closed call hc, hc, ih, List.map_cons]

end Client

namespace PolledClient

open FramedIpc.Client (Call Answer View Error decodeResponse)

variable {ρ τ κ : Type}

/-- A client whose stream keeps a ledger. -/
def recorded (client : PolledClient ρ τ κ) : PolledClient ρ τ (κ × Ledger) :=
  ⟨client.codec, client.stream.recorded, client.maxPayload⟩

/-- Make a call, as long as the patience lasts. A close answers in any case. -/
def perform (client : PolledClient ρ τ κ) (patience : Nat) (s : State κ) :
    Call ρ → Option (Answer τ) × State κ
  | .send request =>
    ((client.send request patience s).1.map (.heard ·.1), (client.send request patience s).2)
  | .write request =>
    ((client.write request patience s).1.map (.wrote ·.1), (client.write request patience s).2)
  | .read => ((client.read patience s).1.map (.heard ·.1), (client.read patience s).2)
  | .close => (some .closed, client.close patience s)

/-- What is seen of calls one after another, each waited for as long as the
    patience lasts. -/
def views (client : PolledClient ρ τ κ) (patience : Nat) :
    List (Call ρ) → State (κ × Ledger) → List (View τ)
  | [], _ => []
  | call :: calls, s =>
    ⟨(client.recorded.perform patience s call).1,
      (client.recorded.perform patience s call).2.transport.stream.2.written,
      (client.recorded.perform patience s call).2.phase⟩ ::
      views client patience calls (client.recorded.perform patience s call).2

section Ends

/-! The ways that the calls can end, if nobody loses patience. -/

variable {client : PolledClient ρ τ κ} {s s₁ s' : State κ} {request : ρ} {payload : Bytes}
  {transport : Transport κ}

theorem ends_write_closed (request : ρ) (hc : s.phase = .closed) :
    Ends (client.write request) s (.error .closed) s :=
  .of_immediate fun patience => by rw [write, hc]

theorem ends_write_pending (request : ρ) (hp : s.phase = .awaiting) :
    Ends (client.write request) s (.error .responsePending) s :=
  .of_immediate fun patience => by rw [write, hp]

theorem ends_write_unencoded {cause : Payload.Error} (hi : s.phase = .idle)
    (he : client.codec.encode request = .error cause) :
    Ends (client.write request) s (.error (.codec cause)) s :=
  .of_immediate fun patience => by simp only [write, hi, he]

theorem ends_write_refused {error : Frame.Error} (hi : s.phase = .idle)
    (he : client.codec.encode request = .ok payload) (hempty : s.transport.outbound = [])
    (hr : Frame.encodeWithin client.maxPayload payload = .error error) :
    Ends (client.write request) s (.error (.ofFrame error)) s := by
  refine .of_immediate fun patience => ?_
  simp only [write, hi, he, Transport.send_of_refused hempty hr,
    Frame.isRefusal_of_encodeWithin hr, if_true]
  rw [← hi]

theorem ends_write_written (hi : s.phase = .idle)
    (he : client.codec.encode request = .ok payload)
    (hends : Ends (Transport.send client.stream client.maxPayload payload) s.transport (.ok ())
      transport) :
    Ends (client.write request) s (.ok ()) ⟨transport, .awaiting⟩ := by
  rcases hends with ⟨used, hends⟩
  refine ⟨used, fun extra => ?_⟩
  simp only [write, hi, he, hends extra]

theorem ends_read_closed (hc : s.phase = .closed) :
    Ends client.read s (.error .closed) s :=
  .of_immediate fun patience => by rw [read, hc]

/-- What an open client makes of what its transport brought. -/
def readOf (codec : Codec ρ τ) (transport : Transport κ) :
    Except Frame.Error (Option Bytes) → Except Error τ × State κ
  | .ok (some payload) => (decodeResponse codec payload, ⟨transport, .idle⟩)
  | .ok none => (.error .disconnected, ⟨transport, .closed⟩)
  | .error error => (.error (.ofFrame error), ⟨transport, .closed⟩)

theorem read_of_open (hopen : s.phase ≠ .closed)
    (patience : Nat) :
    client.read patience s =
      match s.transport.next client.stream client.maxPayload patience with
      | (none, transport) => (none, ⟨transport, s.phase⟩)
      | (some (brought, left), transport) =>
        (some ((readOf client.codec transport brought).1, left),
          (readOf client.codec transport brought).2) := by
  rcases s with ⟨before, phase⟩
  rcases hnext : before.next client.stream client.maxPayload patience with
    ⟨_ | ⟨error | _ | payload, left⟩, transport⟩
  all_goals
    cases phase with
    | closed => exact absurd rfl hopen
    | idle => simp only [read, hnext, readOf]
    | awaiting => simp only [read, hnext, readOf]

theorem ends_read {brought : Except Frame.Error (Option Bytes)} (hopen : s.phase ≠ .closed)
    (hends : Ends (Transport.next client.stream client.maxPayload) s.transport brought
      transport) :
    Ends client.read s (readOf client.codec transport brought).1
      (readOf client.codec transport brought).2 := by
  rcases hends with ⟨used, hends⟩
  refine ⟨used, fun extra => ?_⟩
  rw [read_of_open hopen, hends extra]

/-- A send waits for its halves one after the other. -/
theorem ends_send {outcome : Except Error τ} (hw : Ends (client.write request) s (.ok ()) s₁)
    (hr : Ends client.read s₁ outcome s') : Ends (client.send request) s outcome s' := by
  rcases hw with ⟨used₁, hw⟩
  rcases hr with ⟨used₂, hr⟩
  refine ⟨used₁ + used₂, fun extra => ?_⟩
  simp only [send, Nat.add_assoc, hw (used₂ + extra), hr extra]

theorem ends_send_unwritten {error : Error}
    (hw : Ends (client.write request) s (.error error) s') :
    Ends (client.send request) s (.error error) s' := by
  rcases hw with ⟨used, hw⟩
  refine ⟨used, fun extra => ?_⟩
  simp only [send, hw extra]

end Ends

theorem close_of_closed {client : PolledClient ρ τ κ} {s : State κ} (patience : Nat)
    (hc : s.phase = .closed) : client.close patience s = s := by
  rw [close, hc]

theorem close_of_open {client : PolledClient ρ τ κ} {s : State κ} (patience : Nat)
    (hopen : s.phase ≠ .closed) :
    client.close patience s = ⟨(s.transport.close client.stream patience).2, .closed⟩ := by
  unfold close
  split
  · exact absurd ‹_› hopen
  · rfl

theorem views_of_closed (client : PolledClient ρ τ κ) (patience : Nat) (calls : List (Call ρ))
    {s : State (κ × Ledger)} (hc : s.phase = .closed) :
    client.views patience calls s =
      calls.map fun call => ⟨some call.turnedAway, s.transport.stream.2.written, .closed⟩ := by
  induction calls with
  | nil => rfl
  | cons call calls ih =>
      have hperform : client.recorded.perform patience s call = (some call.turnedAway, s) := by
        cases call with
        | send request => simp only [perform, send, write, hc, Option.map_some, Call.turnedAway]
        | write request => simp only [perform, write, hc, Option.map_some, Call.turnedAway]
        | read => simp only [perform, read, hc, Option.map_some, Call.turnedAway]
        | close => simp only [perform, close_of_closed patience hc, Call.turnedAway]
      rw [views, hperform, hc, ih, List.map_cons]

end PolledClient

open FramedIpc.Client (Call)

variable {ρ τ σ κ : Type} {client : Client ρ τ σ} {io : PolledStream κ}

/-- The two clients stand at the same place: in the exchange, and in the bytes
    that have gone out. While they are open the same bytes are to come in, and
    no frame is half out. -/
structure Abreast (client : Client ρ τ σ) (io : PolledStream κ) (s : Client.State (σ × Ledger))
    (p : PolledClient.State (κ × Ledger)) : Prop where
  phase : p.phase = s.phase
  written : p.transport.stream.2.written = s.stream.2.written
  serves : s.phase ≠ .closed →
    ∃ row, client.stream.recorded.Serves s.stream row ∧ p.transport.Serves io.recorded row

section Abreast

variable {s : Client.State (σ × Ledger)} {p : PolledClient.State (κ × Ledger)}

theorem Abreast.write (h : Abreast client io s p) (request : ρ) :
    ∃ p', Ends ((client.polling io).recorded.write request) p
        (client.recorded.write request s).1 p' ∧
      Abreast client io (client.recorded.write request s).2 p' := by
  rcases hw : client.recorded.write request s with ⟨outcome, s'⟩
  cases Client.writeHalf_of_write hw with
  | closed hc => exact ⟨p, PolledClient.ends_write_closed request (h.phase.trans hc), h⟩
  | pending hp => exact ⟨p, PolledClient.ends_write_pending request (h.phase.trans hp), h⟩
  | unencoded hi he => exact ⟨p, PolledClient.ends_write_unencoded (h.phase.trans hi) he, h⟩
  | refused hi he hframe hr =>
      rcases h.serves (by rw [hi]; decide) with ⟨_, _, _, hempty⟩
      exact ⟨p, PolledClient.ends_write_refused (h.phase.trans hi) he hempty
        (Frame.encodeWithin_of_write_refusal hframe hr), h⟩
  | broken hi he hframe hr =>
      -- Nothing breaks off where the stream refuses nothing.
      rcases h.serves (by rw [hi]; decide) with ⟨_, hserves, _⟩
      rw [Frame.isRefusal_of_serves hserves hframe] at hr
      cases hr
  | written hi he hframe =>
      rcases h.serves (by rw [hi]; decide) with ⟨row, hserves, htransport⟩
      have hfit := Frame.fits_of_write hframe
      have hwritten := (Frame.write_cases (Stream.recorded_tracks client.stream) hframe).2
      rcases Transport.send_of_serves (PolledStream.recorded_tracks io) htransport hfit with
        ⟨transport, hends, htransport', hsent⟩
      refine ⟨⟨transport, .awaiting⟩,
        PolledClient.ends_write_written (h.phase.trans hi) he hends, rfl, ?_, fun _ =>
          ⟨row, (Frame.write_of_serves hserves hfit hframe).2, htransport'⟩⟩
      rcases hwritten with ⟨_, _, hwritten⟩ | ⟨_, ho, _⟩ | ⟨_, _, ho, _⟩
      · rw [hsent, hwritten, h.written]
      · cases ho
      · cases ho

theorem Abreast.read (h : Abreast client io s p) :
    ∃ p', Ends (client.polling io).recorded.read p (client.recorded.read s).1 p' ∧
      Abreast client io (client.recorded.read s).2 p' := by
  by_cases hc : s.phase = .closed
  · rw [Client.read_of_closed hc]
    exact ⟨p, PolledClient.ends_read_closed (h.phase.trans hc), h⟩
  rcases h.serves hc with ⟨row, hserves, htransport⟩
  rcases hframe : Frame.read client.stream.recorded client.maxPayload s.stream with
    ⟨outcome, stream⟩
  have hwritten := (Frame.read_cases (Stream.recorded_tracks client.stream) hframe).1
  rcases Frame.read_of_serves hserves hframe with ⟨houtcome, hrest⟩
  rcases Transport.next_of_serves (PolledStream.recorded_tracks io) client.maxPayload htransport
    with ⟨transport, hends, htransport', _, hsame⟩
  have hopen : p.phase ≠ .closed := by rw [h.phase]; exact hc
  have hended : Ends (client.polling io).recorded.read p _ _ := PolledClient.ends_read hopen hends
  have hlevel : transport.stream.2.written = stream.2.written := by
    rw [hsame, hwritten, h.written]
  -- Both clients look at the front of the same row.
  rcases hlast : Frame.takeLast client.maxPayload row with ⟨error | _ | payload, rest⟩
  · rw [hlast] at houtcome hended
    rw [Client.read_of_error hc (houtcome ▸ hframe)]
    exact ⟨_, hended, rfl, hlevel, fun hopen' => absurd rfl hopen'⟩
  · rw [hlast] at houtcome hended
    rw [Client.read_of_error hc (houtcome ▸ hframe)]
    exact ⟨_, hended, rfl, hlevel, fun hopen' => absurd rfl hopen'⟩
  · have htake := Frame.take_of_takeLast hlast
    rw [hlast] at houtcome hended
    rw [Client.read_of_frame hc (houtcome ▸ hframe)]
    exact ⟨_, hended, rfl, hlevel, fun _ =>
      ⟨rest, hrest payload rest htake, htransport' payload rest htake⟩⟩

theorem Abreast.send (h : Abreast client io s p) (request : ρ) :
    ∃ p', Ends ((client.polling io).recorded.send request) p
        (client.recorded.send request s).1 p' ∧
      Abreast client io (client.recorded.send request s).2 p' := by
  rcases h.write request with ⟨p₁, hwrote, h₁⟩
  rw [Client.send_eq]
  rcases hw : client.recorded.write request s with ⟨error | _, s₁⟩
  · rw [hw] at hwrote h₁
    exact ⟨p₁, PolledClient.ends_send_unwritten hwrote, h₁⟩
  · rw [hw] at hwrote h₁
    rcases h₁.read with ⟨p₂, hread, h₂⟩
    exact ⟨p₂, PolledClient.ends_send hwrote hread, h₂⟩

/-- A close writes nothing on either side, since nothing is half out. -/
theorem Abreast.close (h : Abreast client io s p) (patience : Nat) :
    Abreast client io (client.recorded.close s)
      ((client.polling io).recorded.close patience p) := by
  by_cases hc : s.phase = .closed
  · rw [Client.close_of_closed hc, PolledClient.close_of_closed patience (h.phase.trans hc)]
    exact h
  · rcases h.serves hc with ⟨_, _, _, hempty⟩
    have hdrains := Transport.drains_close (PolledStream.recorded_tracks io) patience p.transport
    rw [Client.close_of_open hc,
      PolledClient.close_of_open patience (by rw [h.phase]; exact hc)]
    exact ⟨rfl, (hdrains.of_empty hempty).2.trans h.written, fun hopen => absurd rfl hopen⟩

/-- Any call but a close ends, if nobody loses patience, and in one way. -/
theorem Abreast.perform (h : Abreast client io s p) {call : Call ρ} (hcall : call ≠ .close) :
    ∃ p' used, (∀ extra, (client.polling io).recorded.perform (used + extra) p call =
        (some (call.answer client.recorded s), p')) ∧
      Abreast client io (call.after client.recorded s) p' := by
  cases call with
  | send request =>
      rcases h.send request with ⟨p', ⟨used, hends⟩, h'⟩
      refine ⟨p', used, fun extra => ?_, h'⟩
      simp only [PolledClient.perform, hends, Option.map_some, Call.answer]
  | write request =>
      rcases h.write request with ⟨p', ⟨used, hends⟩, h'⟩
      refine ⟨p', used, fun extra => ?_, h'⟩
      simp only [PolledClient.perform, hends, Option.map_some, Call.answer]
  | read =>
      rcases h.read with ⟨p', ⟨used, hends⟩, h'⟩
      refine ⟨p', used, fun extra => ?_, h'⟩
      simp only [PolledClient.perform, hends, Option.map_some, Call.answer]
  | close => exact absurd rfl hcall

/-- Clients that stand at the same place cannot be told apart from there on,
    given patience enough for all calls. -/
theorem Abreast.views (h : Abreast client io s p) (calls : List (Call ρ)) :
    ∃ enough, ∀ patience, enough ≤ patience →
      (client.polling io).views patience calls p = client.views calls s := by
  induction calls generalizing s p with
  | nil => exact ⟨0, fun _ _ => rfl⟩
  | cons call calls ih =>
      by_cases hcall : call = .close
      · -- What a close leaves depends on the patience, but it shows nowhere.
        subst hcall
        refine ⟨0, fun patience _ => ?_⟩
        have h' := h.close patience
        have hclosed := Client.phase_close client.recorded s
        rw [PolledClient.views, Client.views]
        simp only [PolledClient.perform, Call.answer, Call.after]
        rw [PolledClient.views_of_closed _ _ _ (h'.phase.trans hclosed),
          Client.views_of_closed _ _ hclosed, h'.phase, h'.written]
      · rcases h.perform hcall with ⟨p', used, hends, h'⟩
        rcases ih h' with ⟨enough, hviews⟩
        refine ⟨used + enough, fun patience hle => ?_⟩
        have hcalled := hends (patience - used)
        rw [Nat.add_sub_cancel' (by omega)] at hcalled
        rw [PolledClient.views, Client.views, hcalled, hviews patience (by omega), h'.phase,
          h'.written]

end Abreast

/-- Two clients with the same codec and the same limit, one on a stream and one
    on a polled stream that serve the same bytes, cut up and interrupted each
    in its own way. Whatever calls are made, each gives the same answer on both,
    after each the same bytes have gone out, and both stand at the same place in
    the exchange. -/
theorem views_eq_of_serves (client : Client ρ τ σ) (io : PolledStream κ) {start : σ}
    {polledStart : κ} {inbound : Bytes} (h : client.stream.Serves start inbound)
    (hpolled : io.Serves polledStart inbound) (calls : List (Call ρ)) :
    ∃ enough, ∀ patience, enough ≤ patience →
      (client.polling io).views patience calls (.fresh (polledStart, .blank)) =
        client.views calls (.fresh (start, .blank)) := by
  refine Abreast.views ⟨rfl, rfl, fun _ => ⟨inbound, h.recorded _, ⟨inbound, rfl, ?_⟩, rfl⟩⟩ calls
  exact hpolled.recorded _

/-- A whole frame, and one that is cut short, in pieces with an interruption
    among them; writes are taken in parts. -/
def torn : Stream.Script :=
  ⟨[], [.chunk [0, 0], .fault (.bare .interrupted), .chunk [0, 1, 7, 0, 0], .chunk [0, 5, 9]],
    [.ok 2, .error (.bare .interrupted), .ok 1], [some (.bare .interrupted)], []⟩

/-- The same bytes in other pieces, with waits among them. -/
def fitful : PolledStream.PolledScript :=
  ⟨[], [.pending, .ready (.chunk [0, 0, 0, 1, 7, 0]), .pending, .pending,
    .ready (.chunk [0, 0, 5]), .ready (.chunk [9])], [.pending, .ready (.ok 3)], [], []⟩

/-- A request, its response, one more request whose response is cut short, and
    a call on the client that this has closed. -/
theorem views_eq_of_serves_torn :
    Stream.Script.stream.Serves torn torn.bytes ∧
      PolledStream.PolledScript.stream.Serves fitful torn.bytes ∧
      ∃ enough, ∀ patience, enough ≤ patience →
        ((Client.plain 16).polling PolledStream.PolledScript.stream).views patience
            [.write [4], .send [5], .read, .send [6, 6], .read] (.fresh (fitful, .blank)) =
          (Client.plain 16).views [.write [4], .send [5], .read, .send [6, 6], .read]
            (.fresh (torn, .blank)) := by
  have h : Stream.Script.stream.Serves torn torn.bytes :=
    Stream.Script.serves (by decide) (by decide) (by decide)
  have hpolled : PolledStream.PolledScript.stream.Serves fitful torn.bytes :=
    PolledStream.PolledScript.serves (by decide) (by decide) (by decide)
  exact ⟨h, hpolled, views_eq_of_serves _ _ h hpolled _⟩

end FramedIpc
