import FramedIpc.Command.Run
import FramedIpc.Proofs.Dial.Record
import FramedIpc.Proofs.Stream.View

/-!
# Programs Seen Through a View

What a program answers does not say what it did: how many attempts to connect
it made and how each of them ended, and which bytes went over the socket. A
recorded host notes both. The program cannot see the notes, so it runs as it
would without them, and ends alike (`run_of_recorded`).

That is so for every view of a host's states that shows another host, and one
layer rests on the next: a dial, the settings of the socket, an exchange, the
program.

## Main definitions

* `Host.Shows`: A view of one host's states shows another host.
* `Host.recorded`: A host that notes what is done to it.

## Theorems

* `Shows.connectName`, `Shows.exchange`, `Shows.request`: Layers are shown.
* `Shows.run`: So is the program.
* `run_of_recorded`: A program runs on a recorded host as it does without.
-/

namespace FramedIpc.Host

open Command

variable {σ σ' : Type}

/-- Whether a view of the states of a host shows another host. -/
structure Shows (seen : Host σ) (host : Host σ') (view : σ' → σ) : Prop where
  world : Dial.Shows seen.world host.world view
  stream : Stream.Shows seen.socket.stream host.socket.stream view
  limitReads : ∀ limit s, seen.socket.limitReads limit (view s) =
    ((host.socket.limitReads limit s).1, view (host.socket.limitReads limit s).2)
  limitWrites : ∀ limit s, seen.socket.limitWrites limit (view s) =
    ((host.socket.limitWrites limit s).1, view (host.socket.limitWrites limit s).2)

/-- A host that notes what a dial does, and what goes over the socket. -/
def recorded (host : Host σ) : Host ((σ × List (Dial.Deed Unit)) × Ledger) where
  world :=
    { connect := fun endpoint s =>
        ((host.world.recorded.connect endpoint s.1).1,
          ((host.world.recorded.connect endpoint s.1).2, s.2))
      now := fun s => host.world.recorded.now s.1
      sleep := fun pause s => (host.world.recorded.sleep pause s.1, s.2)
      cancelled := fun s => host.world.recorded.cancelled s.1 }
  socket :=
    { stream := (host.socket.stream.beside (List (Dial.Deed Unit))).recorded
      limitReads := fun limit s =>
        ((host.socket.limitReads limit s.1.1).1,
          (((host.socket.limitReads limit s.1.1).2, s.1.2), s.2))
      limitWrites := fun limit s =>
        ((host.socket.limitWrites limit s.1.1).1,
          (((host.socket.limitWrites limit s.1.1).2, s.1.2), s.2)) }

/-- Notes are not seen. -/
theorem recorded_shows (host : Host σ) : Shows host host.recorded fun s => s.1.1 where
  world := ⟨fun _ _ => rfl, fun _ => rfl, fun _ _ => rfl, fun _ => rfl⟩
  stream := (Stream.beside_shows host.socket.stream _).trans (Stream.recorded_shows _)
  limitReads _ _ := rfl
  limitWrites _ _ := rfl

variable {seen : Host σ} {host : Host σ'} {view : σ' → σ}

theorem Shows.configure (h : Shows seen host view) (config : Frame.Config) (s : σ') :
    seen.socket.configure config (view s) =
      ((host.socket.configure config s).1, view (host.socket.configure config s).2) := by
  unfold Socket.configure
  rw [h.limitReads]
  rcases host.socket.limitReads config.readTimeout s with ⟨fault | _, s'⟩
  · rfl
  · exact h.limitWrites config.writeTimeout s'

theorem Shows.connect (h : Shows seen host view) (config : Client.Config) (heedsCancel : Bool)
    (endpoint : Endpoint) (rounds : Nat) (s : σ') :
    seen.connect config heedsCancel endpoint rounds (view s) =
      (host.connect config heedsCancel endpoint rounds s).map fun r => (r.1, view r.2) := by
  unfold Host.connect Dialer.dialFor
  rw [h.world.now, ← Dial.dialFrom_of_shows h.world]
  rcases Dialer.dialFrom host.world ⟨config.retry, heedsCancel⟩ endpoint (host.world.now s) rounds 0 s
    with _ | ⟨cause | _, events, s'⟩
  · rfl
  · rfl
  · simp only [Option.map_some, Dial.Run.seen, h.configure]
    rcases host.socket.configure config.frame s' with ⟨fault | _, s''⟩
    · rfl
    · rfl

theorem Shows.connectName (h : Shows seen host view) (config : Client.Config)
    (heedsCancel : Bool) (name : Name) (rounds : Nat) (s : σ') :
    seen.connectName config heedsCancel name rounds (view s) =
      (host.connectName config heedsCancel name rounds s).map fun r => (r.1, view r.2) := by
  unfold Host.connectName
  rcases Endpoint.resolve name with cause | endpoint
  · rfl
  · simp only [h.connect, Option.map_map]
    rfl

theorem Shows.exchange (h : Shows seen host view) (request : Request) (s : σ') :
    seen.exchange request (view s) =
      ((host.exchange request s).1, view (host.exchange request s).2) := by
  unfold Host.exchange Host.client
  have hsend := h.stream.clientSend Command.codec request.config.frame.maxPayload request.value
    (.fresh s)
  have hclose := h.stream.clientClose Command.codec request.config.frame.maxPayload
  simp only [Stream.seenState, Client.State.fresh] at hsend hclose ⊢
  rw [hsend]
  rcases Client.send ⟨Command.codec, host.socket.stream, request.config.frame.maxPayload⟩
      request.value ⟨s, .idle⟩ with ⟨error | response, state⟩
  · rfl
  · simp only [hclose state]

theorem Shows.request (h : Shows seen host view) (request : Request) (rounds : Nat) (s : σ') :
    seen.request request rounds (view s) =
      (host.request request rounds s).map fun r => (r.1, view r.2) := by
  unfold Host.request
  rw [h.connectName]
  rcases host.connectName request.config false request.name rounds s with _ | ⟨error | endpoint, s'⟩
  · rfl
  · rfl
  · simp only [Option.map_some, h.exchange, h.world.now]
    rcases host.exchange request s' with ⟨failure | value, s''⟩
    · rfl
    · simp only [h.world.now]

/-- A program sees no more of a host than is shown. -/
theorem Shows.run (h : Shows seen host view) (toTerminal : Bool) (environment : Option String)
    (args : List String) (rounds : Nat) (s : σ') :
    seen.run toTerminal environment args rounds (view s) =
      (host.run toTerminal environment args rounds s).map fun r => (r.1, view r.2) := by
  unfold Host.run
  rcases Invocation.ofArguments? environment args with _ | ⟨task, display⟩
  · rfl
  -- Two of the three tasks do not look at the host.
  unfold Host.perform
  cases task with
  | endpoint target => rfl
  | version extended => rfl
  | send options =>
      simp only [Host.performSend]
      rcases requestOf options with failure | request
      · rfl
      · simp only [h.request, Option.map_map]
        rfl

/-- A program runs on a recorded host as it does without the records. -/
theorem run_of_recorded {host : Host σ} {toTerminal : Bool} {environment : Option String}
    {args : List String} {rounds : Nat} {s s' : σ} {outcome : Outcome}
    (h : host.run toTerminal environment args rounds s = some (outcome, s')) :
    ∃ deeds ledger, host.recorded.run toTerminal environment args rounds ((s, []), .blank) =
      some (outcome, ((s', deeds), ledger)) := by
  have hseen := (recorded_shows host).run toTerminal environment args rounds ((s, []), .blank)
  rw [h] at hseen
  rcases Option.map_eq_some_iff.mp hseen.symm with ⟨⟨_, ⟨_, deeds⟩, ledger⟩, hrun, heq⟩
  cases heq
  exact ⟨deeds, ledger, hrun⟩

end FramedIpc.Host
