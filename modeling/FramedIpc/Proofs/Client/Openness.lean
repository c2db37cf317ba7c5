import FramedIpc.Proofs.Client.Run

/-!
# When a Client Stays Open

Whoever gets an error from a client wants to know whether the client can
still be used. The error itself says so: `Error.isFatal` sorts the errors into
those that leave the client closed and those that do not, without a look at
the client. One error it cannot sort. A frame that is too long was refused
before any of it was written if it was to go out, and has left its payload in
the stream if it came in; the direction has to be known as well.

That what an error says is so is a fact about every way that a call can end,
and it is shown half by half. A write half never ends with a frame that came
in, a read half never with one that was to go out, and a send ends with the
half that failed. So a user who keeps the outcomes of all calls knows at any
time whether the client is open (`closed_run_iff`).

## Main definitions

* `Error.isOversize`: Whether a frame was too long.
* `Phase.isAwaiting`: Whether a response is pending.
* `Half.closes`: Whether a half has left the client closed.
* `Call.turnedAway`: What a call on a closed client answers.
* `Tells`: What the outcome of a call tells of the client after it.

## Theorems

* `closed_write_iff`, `closed_read_iff`: Each half closes as its outcome says.
* `closed_run_iff`: A client is closed exactly if some half closed it, or a
  close was called.
* `closed_iff_fatal`: What errors say is so, in every state that is reached.
-/

namespace FramedIpc.Client

variable {ρ τ σ : Type}

/-- Whether a frame was too long. -/
def Error.isOversize : Error → Bool
  | .frameTooLarge _ _ => true
  | _ => false

/-- Whether a response is pending. -/
def Phase.isAwaiting : Phase → Bool
  | .awaiting => true
  | _ => false

/-- Whether a half has left the client closed, as far as its outcome tells. -/
def Half.closes : Half ρ τ → Bool
  | .wrote _ (.error error) => error.isFatal
  | .heard (.error error) => error.isFatal || error.isOversize
  | _ => false

/-- What the outcome of a call tells of the phase after it. `inbound` says
    whether the call had come to its read half when it ended. -/
structure Tells {α : Type} (inbound : Prop) (outcome : Except Error α) (after : Phase) : Prop where
  open_of_ok : ∀ {answer}, outcome = .ok answer → after ≠ .closed
  closed_iff : ∀ {error}, outcome = .error error →
    (after = .closed ↔ error.isFatal = true ∨ error.isOversize = true ∧ inbound)
  /-- Errors of payloads, calls at the wrong time and frames that were to go
      out leave a client open. -/
  kept : ∀ {error}, outcome = .error error →
    (∃ cause, error = .codec cause) ∨ error = .responsePending ∨
      (error.isOversize = true ∧ ¬ inbound) → after ≠ .closed
  /-- Errors of the stream close it, and it was closed if it says so. -/
  lost : ∀ {error}, outcome = .error error →
    (∃ fault, error = .transport fault) ∨ error = .disconnected ∨
      (∃ expected received, error = .truncatedFrame expected received) ∨ error = .closed →
    after = .closed
  ne_connect : ∀ cause, outcome ≠ .error (.connect cause)

/-- What a call on a closed client answers. -/
def Call.turnedAway : Call ρ → Answer τ
  | .send _ => .heard (.error .closed)
  | .write _ => .wrote (.error .closed)
  | .read => .heard (.error .closed)
  | .close => .closed

/-- A client after some calls, made on a stream on which nothing has
    happened. -/
def reached (client : Client ρ τ σ) (calls : List (Call ρ)) (start : σ) : State σ :=
  (run client calls (.fresh start)).2

theorem isFatal_ofFrame (error : Frame.Error) :
    (Error.ofFrame error).isFatal = !error.isRefusal := by
  cases error with
  | payloadTooLarge => rfl
  | lengthOverflow => rfl
  | io => rfl
  | connectionClosed => rfl
  | truncated => rfl

theorem isOversize_ofFrame (error : Frame.Error) :
    (Error.ofFrame error).isOversize = error.isRefusal := by
  cases error with
  | payloadTooLarge => rfl
  | lengthOverflow => rfl
  | io => rfl
  | connectionClosed => rfl
  | truncated => rfl

theorem ofFrame_ne_connect (error : Frame.Error) (cause : Dial.Error) :
    Error.ofFrame error ≠ .connect cause := by
  intro h
  -- An error of a frame is either fatal or one of size, and a failed dial is neither.
  have hkind := Bool.not_or_self error.isRefusal
  rw [← isFatal_ofFrame, ← isOversize_ofFrame, h] at hkind
  cases hkind

section Tells

variable {α : Type} {inbound : Prop} {outcome : Except Error α} {after : Phase}

/-- Which errors keep a client and which lose it can be read off from when it
    is closed. -/
theorem Tells.of_closed_iff (hok : ∀ {answer}, outcome = .ok answer → after ≠ .closed)
    (hiff : ∀ {error}, outcome = .error error →
      (after = .closed ↔ error.isFatal = true ∨ error.isOversize = true ∧ inbound))
    (hne : ∀ cause, outcome ≠ .error (.connect cause)) : Tells inbound outcome after := by
  refine ⟨hok, hiff, ?_, ?_, hne⟩
  · intro error he hkind hclosed
    rcases hkind with ⟨cause, rfl⟩ | rfl | ⟨hsize, hout⟩
    · rcases (hiff he).mp hclosed with hf | ⟨hf, _⟩
      · cases hf
      · cases hf
    · rcases (hiff he).mp hclosed with hf | ⟨hf, _⟩
      · cases hf
      · cases hf
    · rcases (hiff he).mp hclosed with hf | ⟨_, hin⟩
      · -- A frame that is too long is not fatal by itself.
        cases error with
        | frameTooLarge => cases hf
        | _ => cases hsize
      · exact hout hin
  · intro error he hkind
    rw [hiff he]
    rcases hkind with ⟨fault, rfl⟩ | rfl | ⟨expected, received, rfl⟩ | rfl
    · exact Or.inl rfl
    · exact Or.inl rfl
    · exact Or.inl rfl
    · exact Or.inl rfl

theorem Tells.congr {inbound' : Prop} (h : Tells inbound outcome after)
    (hiff : inbound ↔ inbound') : Tells inbound' outcome after := by
  rw [← propext hiff]
  exact h

end Tells

variable {client : Client ρ τ σ} {s s' : State σ} {request : ρ}

section Closed

/-! A closed client tells so, and stays as it is. -/

theorem write_of_closed (request : ρ) (hc : s.phase = .closed) :
    client.write request s = (.error .closed, s) := by
  rw [write, hc]

theorem read_of_closed (hc : s.phase = .closed) : client.read s = (.error .closed, s) := by
  rw [read, hc]

theorem send_of_closed (request : ρ) (hc : s.phase = .closed) :
    client.send request s = (.error .closed, s) := by
  rw [send, write_of_closed request hc]

theorem after_of_closed (call : Call ρ) (hc : s.phase = .closed) : call.after client s = s := by
  cases call with
  | send request => rw [Call.after, send_of_closed request hc]
  | write request => rw [Call.after, write_of_closed request hc]
  | read => rw [Call.after, read_of_closed hc]
  | close => rw [Call.after, close_of_closed hc]

theorem answer_of_closed (call : Call ρ) (hc : s.phase = .closed) :
    call.answer client s = call.turnedAway := by
  cases call with
  | send request => rw [Call.answer, send_of_closed request hc, Call.turnedAway]
  | write request => rw [Call.answer, write_of_closed request hc, Call.turnedAway]
  | read => rw [Call.answer, read_of_closed hc, Call.turnedAway]
  | close => rfl

theorem phase_close (client : Client ρ τ σ) (s : State σ) :
    (client.close s).phase = .closed := by
  rcases s with ⟨stream, phase⟩
  cases phase with
  | idle => rfl
  | awaiting => rfl
  | closed => rfl

end Closed

theorem closed_write_iff {outcome : Except Error Unit}
    (h : client.write request s = (outcome, s')) :
    s'.phase = .closed ↔ (Half.wrote request outcome : Half ρ τ).closes = true := by
  cases writeHalf_of_write h with
  | closed hc => exact ⟨fun _ => rfl, fun _ => hc⟩
  | pending hp => simp only [hp, Half.closes, Error.isFatal, reduceCtorEq, Bool.false_eq_true]
  | unencoded hi _ =>
      simp only [hi, Half.closes, Error.isFatal, reduceCtorEq, Bool.false_eq_true]
  | refused hi _ _ hr =>
      -- The client is idle still, and a refusal is not fatal.
      simp only [hi, Half.closes, isFatal_ofFrame, hr, reduceCtorEq, Bool.not_true,
        Bool.false_eq_true]
  | broken _ _ _ hr => simp only [Half.closes, isFatal_ofFrame, hr, Bool.not_false]
  | written _ _ _ => simp only [Half.closes, reduceCtorEq, Bool.false_eq_true]

theorem closes_decodeResponse (codec : Codec ρ τ) (payload : Bytes) :
    (Half.heard (decodeResponse codec payload) : Half ρ τ).closes = false := by
  unfold decodeResponse
  rcases codec.decode payload with cause | response
  · rfl
  · rfl

theorem closed_read_iff {outcome : Except Error τ} (h : client.read s = (outcome, s')) :
    s'.phase = .closed ↔ (Half.heard outcome : Half ρ τ).closes = true := by
  cases readHalf_of_read h with
  | closed hc => exact ⟨fun _ => rfl, fun _ => hc⟩
  | broken _ _ =>
      -- What is no refusal is fatal, and a refusal that came in is one of size.
      simp only [Half.closes, isFatal_ofFrame, isOversize_ofFrame, Bool.not_or_self]
  | answered _ _ => simp only [closes_decodeResponse, reduceCtorEq, Bool.false_eq_true]

theorem tells_write (client : Client ρ τ σ) (s : State σ) (request : ρ) :
    Tells False (client.write request s).1 (client.write request s).2.phase := by
  rcases h : client.write request s with ⟨outcome, s'⟩
  have hiff := closed_write_iff h
  refine .of_closed_iff ?_ ?_ ?_
  · rintro answer rfl
    rw [ne_eq, hiff]
    exact Bool.false_ne_true
  · rintro error rfl
    rw [hiff, and_false, or_false]
    rfl
  · intro cause ho
    cases writeHalf_of_write h with
    | closed _ => cases ho
    | pending _ => cases ho
    | unencoded _ _ => cases ho
    | refused _ _ _ _ => exact ofFrame_ne_connect _ cause (Except.error.inj ho)
    | broken _ _ _ _ => exact ofFrame_ne_connect _ cause (Except.error.inj ho)
    | written _ _ _ => cases ho

theorem decodeResponse_ne_connect (codec : Codec ρ τ) (payload : Bytes) (cause : Dial.Error) :
    decodeResponse codec payload ≠ .error (.connect cause) := by
  unfold decodeResponse
  rcases codec.decode payload with inner | response
  · intro h
    cases h
  · intro h
    cases h

theorem tells_read (client : Client ρ τ σ) (s : State σ) :
    Tells True (client.read s).1 (client.read s).2.phase := by
  rcases h : client.read s with ⟨outcome, s'⟩
  have hiff := closed_read_iff h
  refine .of_closed_iff ?_ ?_ ?_
  · rintro answer rfl
    rw [ne_eq, hiff]
    exact Bool.false_ne_true
  · rintro error rfl
    rw [hiff, and_true, ← Bool.or_eq_true]
    rfl
  · intro cause ho
    cases readHalf_of_read h with
    | closed _ => cases ho
    | broken _ _ => exact ofFrame_ne_connect _ cause (Except.error.inj ho)
    | answered _ _ => exact decodeResponse_ne_connect _ _ cause ho

/-- A send has come to its read half if its write half went well. -/
theorem tells_send (client : Client ρ τ σ) (s : State σ) (request : ρ) :
    Tells ((client.write request s).1 = .ok ()) (client.send request s).1
      (client.send request s).2.phase := by
  have hwrite := tells_write client s request
  rw [send_eq]
  rcases h : client.write request s with ⟨error | _, s'⟩
  · rw [h] at hwrite
    refine .of_closed_iff ?_ ?_ ?_
    · intro answer ho
      cases ho
    · rintro _ ⟨⟩
      rw [hwrite.closed_iff rfl]
      simp only [reduceCtorEq]
    · intro cause ho
      exact hwrite.ne_connect cause (by rw [Except.error.inj ho])
  · exact (tells_read client s').congr (iff_of_true trivial rfl)

theorem closed_after_iff (client : Client ρ τ σ) (call : Call ρ) (s : State σ) :
    (call.after client s).phase = .closed ↔
      call = .close ∨ ∃ half ∈ call.halves client s, half.closes = true := by
  cases call with
  | send request =>
      simp only [Call.after, Call.halves, send_eq, reduceCtorEq, false_or]
      rcases hw : client.write request s with ⟨error | _, s'⟩
      · simp only [List.mem_singleton, exists_eq_left, closed_write_iff hw]
      · -- The write half went well, so the read half decides.
        simp only []
        refine (closed_read_iff (Prod.eta (client.read s')).symm).trans ⟨?_, ?_⟩
        · intro h
          exact ⟨_, List.mem_cons_of_mem _ List.mem_cons_self, h⟩
        · rintro ⟨half, hmem, h⟩
          rcases List.mem_cons.mp hmem with rfl | hmem
          · cases h
          · rw [List.mem_singleton.mp hmem] at h
            exact h
  | write request =>
      rcases hw : client.write request s with ⟨outcome, s'⟩
      simp only [Call.after, Call.halves, hw, List.mem_singleton, exists_eq_left, reduceCtorEq,
        false_or, closed_write_iff hw]
  | read =>
      rcases hr : client.read s with ⟨outcome, s'⟩
      simp only [Call.after, Call.halves, hr, List.mem_singleton, exists_eq_left, reduceCtorEq,
        false_or, closed_read_iff hr]
  | close => exact iff_of_true (phase_close client s) (Or.inl rfl)

/-- A client is closed after some calls exactly if it was before, or one of
    the calls was a close, or the outcome of some half says so. -/
theorem closed_run_iff (calls : List (Call ρ)) (s : State σ) :
    (run client calls s).2.phase = .closed ↔
      s.phase = .closed ∨ .close ∈ calls ∨
        ∃ half ∈ (run client calls s).1, half.closes = true := by
  induction calls generalizing s with
  | nil => simp only [run, List.not_mem_nil, false_and, exists_false, or_false]
  | cons call calls ih =>
      have hstays : s.phase = .closed → (call.after client s).phase = .closed := by
        intro hc
        rw [after_of_closed call hc, hc]
      have hstep := closed_after_iff client call s
      simp only [run, ih, List.mem_cons, List.mem_append, or_and_right, exists_or]
      constructor
      · rintro (hafter | hclose | hhalf)
        · rcases hstep.mp hafter with rfl | hhalf
          · exact Or.inr (Or.inl (Or.inl rfl))
          · exact Or.inr (Or.inr (Or.inl hhalf))
        · exact Or.inr (Or.inl (Or.inr hclose))
        · exact Or.inr (Or.inr (Or.inr hhalf))
      · rintro (hc | (hclose | hclose) | (hhalf | hhalf))
        · exact Or.inl (hstays hc)
        · exact Or.inl (hstep.mpr (Or.inl hclose.symm))
        · exact Or.inr (Or.inl hclose)
        · exact Or.inl (hstep.mpr (Or.inr hhalf))
        · exact Or.inr (Or.inr hhalf)

/-- In every state that a client can reach, what the outcome of a call says of
    the client is so. A call that goes well leaves it open; one that fails
    leaves it closed exactly if the error is fatal, or if a frame that came in
    was too long. No call tells of a failed dial. A client that is closed has
    been closed by a call or an outcome that said so; it awaits no response,
    and every call on it is answered by that alone. -/
theorem closed_iff_fatal (client : Client ρ τ σ) (calls : List (Call ρ)) (start : σ) :
    (∀ request,
      Tells False (client.write request (client.reached calls start)).1
        (client.write request (client.reached calls start)).2.phase) ∧
    Tells True (client.read (client.reached calls start)).1
      (client.read (client.reached calls start)).2.phase ∧
    (∀ request,
      Tells ((client.write request (client.reached calls start)).1 = .ok ())
        (client.send request (client.reached calls start)).1
        (client.send request (client.reached calls start)).2.phase) ∧
    ((client.reached calls start).phase = .closed ↔
      .close ∈ calls ∨ ∃ half ∈ (run client calls (.fresh start)).1, half.closes = true) ∧
    ((client.reached calls start).phase = .closed →
      (client.reached calls start).phase.isAwaiting = false ∧
      ∀ request,
        client.write request (client.reached calls start) =
            (.error .closed, client.reached calls start) ∧
          client.send request (client.reached calls start) =
            (.error .closed, client.reached calls start) ∧
          client.read (client.reached calls start) =
            (.error .closed, client.reached calls start)) := by
  refine ⟨tells_write client _, tells_read client _, tells_send client _, ?_, ?_⟩
  · rw [reached, closed_run_iff]
    simp only [State.fresh, reduceCtorEq, false_or]
  · intro hc
    refine ⟨by rw [hc]; rfl, fun request => ?_⟩
    exact ⟨write_of_closed request hc, send_of_closed request hc, read_of_closed hc⟩

/-- A client on a script that sends bytes and takes bytes for the response. -/
def plain (maxPayload : Nat) : Client Bytes Bytes Stream.Script :=
  ⟨⟨"bytes", .ok, .ok⟩, Stream.Script.stream, maxPayload⟩

/-- Five bytes are too many for a limit of four whether they are to go out or
    come in, but only the second time is it the end. -/
example :
    ((plain 4).write [1, 2, 3, 4, 5] (.fresh ⟨[], [], [], [], []⟩)).1 =
        .error (.frameTooLarge 5 4) ∧
      ((plain 4).write [1, 2, 3, 4, 5] (.fresh ⟨[], [], [], [], []⟩)).2.phase = .idle ∧
      ((plain 4).read (.fresh ⟨[], [.chunk [0, 0, 0, 5]], [], [], []⟩)).2.phase = .closed :=
  ⟨rfl, rfl, by cbv⟩

end FramedIpc.Client
