import FramedIpc.Proofs.Client.Account
import FramedIpc.Proofs.Client.Openness

/-!
# The Pending Response

An open client keeps one bit of its history: whether a response is pending.
The bit is right. It is set exactly if some request was written and no whole
frame has come in since, whether or not the codec could make something of the
frame, and whatever calls were refused in between.

While the bit is set, no request is taken. It is not even looked at: one that
the codec would refuse, or that would be too long, is put off like any other,
and the client that has put it off is the client that it was. So a run with a
request put off goes on like the run without it, and two requests that were
written have a whole frame between them that came in.

## Main definitions

* `Outstanding`: Whether a request was written and no response read since.
* `Spaced`: Whether any two requests have a response between them.
* `PutsOff`: Whether a client puts requests off.

## Theorems

* `outstanding_concat_iff`: What one more half does to what is outstanding.
* `Spaced.concat`: And to the requests that have a response between them.
* `Pending.halvesKeep`: Every half keeps the bit right.
* `putsOff_of_awaiting`: A pending response puts requests off.
* `reads_send_of_error`: A send that fails to write does not read.
* `pending_exactly`: A response is pending exactly while one is outstanding.
-/

namespace FramedIpc.Client

open FramedIpc.Frame (wire)

variable {ρ τ σ : Type}

/-- Whether some request was written and no response was read since. -/
def Outstanding (history : List (Half ρ τ)) : Prop :=
  ∃ before request after, history = before ++ .wrote request (.ok ()) :: after ∧
    responses after = []

/-- Whether any two requests that were written have a response between them. -/
def Spaced (history : List (Half ρ τ)) : Prop :=
  ∀ before first between second after,
    history = before ++ .wrote first (.ok ()) :: between ++ .wrote second (.ok ()) :: after →
      responses between ≠ []

/-- What stands in a list with one more at its end is the one, or stands in
    front of it. -/
theorem eq_or_front_of_concat {α : Type} {front before after : List α} {last middle : α}
    (h : front ++ [last] = before ++ middle :: after) :
    (front = before ∧ last = middle ∧ after = []) ∨
      ∃ rest, front = before ++ middle :: rest ∧ after = rest ++ [last] := by
  rcases List.eq_nil_or_concat after with rfl | ⟨rest, final, rfl⟩
  · rcases List.append_inj' h rfl with ⟨hfront, hlast⟩
    exact Or.inl ⟨hfront, List.singleton_inj.mp hlast, rfl⟩
  · rw [List.concat_eq_append, ← List.cons_append, ← List.append_assoc] at h
    rcases List.append_inj' h rfl with ⟨hfront, hlast⟩
    rw [List.concat_eq_append, List.singleton_inj.mp hlast]
    exact Or.inr ⟨rest, hfront, rfl⟩

section Outstanding

variable {history : List (Half ρ τ)} {half : Half ρ τ}

theorem not_outstanding_nil : ¬ Outstanding ([] : List (Half ρ τ)) := by
  rintro ⟨before, request, after, h, _⟩
  cases List.append_eq_nil_iff.mp h.symm |>.2

/-- A request that is written is outstanding. -/
theorem outstanding_concat_wrote (history : List (Half ρ τ)) (request : ρ) :
    Outstanding (history ++ [.wrote request (.ok ())]) :=
  ⟨history, request, [], rfl, rfl⟩

/-- Any other half leaves it so, unless it has read a response. -/
theorem outstanding_concat_iff (hrequest : half.request? = none) :
    Outstanding (history ++ [half]) ↔ Outstanding history ∧ half.response? = none := by
  constructor
  · rintro ⟨before, request, after, h, hafter⟩
    rcases eq_or_front_of_concat h with ⟨_, rfl, _⟩ | ⟨rest, hfront, rfl⟩
    · cases hrequest
    · rw [responses, List.filterMap_append, List.append_eq_nil_iff] at hafter
      refine ⟨⟨before, request, rest, hfront, hafter.1⟩, ?_⟩
      exact List.filterMap_eq_nil_iff.mp hafter.2 half (List.mem_singleton_self half)
  · rintro ⟨⟨before, request, after, rfl, hafter⟩, hresponse⟩
    refine ⟨before, request, after ++ [half], ?_, ?_⟩
    · rw [List.append_assoc, List.cons_append]
    · rw [responses_concat_none hresponse, hafter]

theorem spaced_nil : Spaced ([] : List (Half ρ τ)) := by
  intro before first between second after h
  cases List.append_eq_nil_iff.mp h.symm |>.2

/-- One more half leaves requests spaced, if nothing is outstanding where it
    has written another. -/
theorem Spaced.concat (h : Spaced history)
    (hnew : half.request? ≠ none → ¬ Outstanding history) : Spaced (history ++ [half]) := by
  intro before first between second after heq
  rcases eq_or_front_of_concat heq with ⟨hfront, rfl, _⟩ | ⟨rest, hfront, _⟩
  · -- The second request is the one that was just written.
    intro hnone
    exact hnew (Option.some_ne_none second) ⟨before, first, between, hfront, hnone⟩
  · exact h before first between second rest hfront

end Outstanding

/-- What the phase of a client tells of its history. -/
structure Pending (history : List (Half ρ τ)) (s : State (σ × Ledger)) : Prop where
  awaiting_iff : s.phase ≠ .closed → (s.phase = .awaiting ↔ Outstanding history)
  spaced : Spaced history

/-- A half that was refused tells nothing new. -/
theorem Pending.refused {history : List (Half ρ τ)} {s : State (σ × Ledger)} {half : Half ρ τ}
    (h : Pending history s) (hrequest : half.request? = none) (hresponse : half.response? = none) :
    Pending (history ++ [half]) s where
  awaiting_iff hopen := by
    rw [outstanding_concat_iff hrequest, h.awaiting_iff hopen]
    exact (and_iff_left hresponse).symm
  spaced := h.spaced.concat fun hne => absurd hrequest hne

/-- Every half keeps the phase telling. -/
theorem Pending.halvesKeep (client : Client ρ τ σ) :
    HalvesKeep client.recorded (fun history s => Pending history s) := by
  constructor
  · intro history s request outcome s' h hw
    cases writeHalf_of_write hw with
    | closed _ => exact h.refused rfl rfl
    | pending _ => exact h.refused rfl rfl
    | unencoded _ _ => exact h.refused rfl rfl
    | refused _ _ _ _ => exact h.refused rfl rfl
    | broken _ _ _ _ =>
        -- The phase of a closed client tells nothing.
        exact ⟨fun hopen => absurd rfl hopen, h.spaced.concat fun hne => absurd rfl hne⟩
    | written hidle _ _ =>
        -- The client was idle, so nothing was outstanding.
        have hnone : ¬ Outstanding history := by
          rw [← h.awaiting_iff (by rw [hidle]; decide), hidle]
          decide
        exact ⟨fun _ => iff_of_true rfl (outstanding_concat_wrote history request),
          h.spaced.concat fun _ => hnone⟩
  · intro history s outcome s' h hr
    cases readHalf_of_read hr with
    | closed _ => exact h.refused rfl rfl
    | broken _ _ =>
        exact ⟨fun hopen => absurd rfl hopen, h.spaced.concat fun hne => absurd rfl hne⟩
    | answered _ _ =>
        refine ⟨fun _ => ?_, h.spaced.concat fun hne => absurd rfl hne⟩
        rw [outstanding_concat_iff rfl, response?_decodeResponse]
        simp only [reduceCtorEq, and_false]
  · intro history s h
    exact ⟨fun hopen => absurd (phase_close client.recorded s) hopen, h.spaced⟩

theorem Pending.trial (client : Client ρ τ σ) (calls : List (Call ρ)) (start : σ) :
    Pending (client.trial calls start).1 (client.trial calls start).2 := by
  have hfresh : Pending ([] : List (Half ρ τ)) (.fresh (start, .blank) : State (σ × Ledger)) := by
    refine ⟨fun _ => iff_of_false ?_ not_outstanding_nil, spaced_nil⟩
    rw [State.fresh]
    exact Phase.noConfusion
  exact (Pending.halvesKeep client).trial hfresh calls

/-- Whether a client puts requests off: it says so and stays as it is, and what
    it does later is what it would have done without them. -/
structure PutsOff (client : Client ρ τ σ) (s : State σ) : Prop where
  write : ∀ request, client.write request s = (.error .responsePending, s)
  send : ∀ request, client.send request s = (.error .responsePending, s)
  later_write : ∀ request later,
    client.answers (.write request :: later) s =
        .wrote (.error .responsePending) :: client.answers later s ∧
      (run client (.write request :: later) s).2 = (run client later s).2
  later_send : ∀ request later,
    client.answers (.send request :: later) s =
        .heard (.error .responsePending) :: client.answers later s ∧
      (run client (.send request :: later) s).2 = (run client later s).2

/-- A client that awaits a response puts requests off. -/
theorem putsOff_of_awaiting (client : Client ρ τ σ) {s : State σ} (hp : s.phase = .awaiting) :
    PutsOff client s := by
  have hwrite : ∀ request, client.write request s = (.error .responsePending, s) := by
    intro request
    rw [Client.write, hp]
  have hsend : ∀ request, client.send request s = (.error .responsePending, s) := by
    intro request
    rw [send_eq, hwrite]
  refine ⟨hwrite, hsend, fun request later => ?_, fun request later => ?_⟩
  · rw [answers, run, Call.answer, Call.after, hwrite]
    exact ⟨rfl, rfl⟩
  · rw [answers, run, Call.answer, Call.after, hsend]
    exact ⟨rfl, rfl⟩

/-- A send whose write half fails gives that failure, and reads nothing. -/
theorem reads_send_of_error {client : Client ρ τ σ} {s : State (σ × Ledger)} {request : ρ}
    {error : Error} (h : (client.recorded.write request s).1 = .error error) :
    (client.recorded.send request s).1 = .error error ∧
      (client.recorded.send request s).2.stream.2.reads = s.stream.2.reads := by
  rcases hw : client.recorded.write request s with ⟨outcome, s'⟩
  rw [hw] at h
  have houtcome : outcome = .error error := h
  rw [houtcome] at hw
  rw [send_eq, hw]
  refine ⟨rfl, notes_write (Q := fun ledger => ledger.reads = s.stream.2.reads) ?_ ?_ rfl hw⟩
  · intro bs outcome ledger hsame
    rw [Ledger.reads_noteWrite, hsame]
  · intro ledger hsame
    exact hsame

/-- An open client awaits a response exactly while one is outstanding: some
    request was written, and no response was read since. The responses that
    were read are the whole frames that came in, one for each, and between any
    two requests that were written there is one. A client that awaits a
    response puts every request off, and a send that cannot write fails as the
    write does and reads nothing. -/
theorem pending_exactly (client : Client ρ τ σ) (calls : List (Call ρ)) (start : σ) :
    ((client.trial calls start).2.phase ≠ .closed →
      ((client.trial calls start).2.phase = .awaiting ↔
        Outstanding (client.trial calls start).1)) ∧
    Spaced (client.trial calls start).1 ∧
    (∃ (received : List Bytes) (rest : Bytes),
      responses (client.trial calls start).1 = received.map (decodeResponse client.codec) ∧
      (client.trial calls start).2.stream.2.taken = wire received ++ rest ∧
      ((client.trial calls start).2.phase ≠ .closed → rest = []) ∧
      ∀ found, Frame.take client.maxPayload rest ≠ .ok (some found)) ∧
    ((client.trial calls start).2.phase = .awaiting →
      PutsOff client.recorded (client.trial calls start).2) ∧
    ∀ request error,
      (client.recorded.write request (client.trial calls start).2).1 = .error error →
        (client.recorded.send request (client.trial calls start).2).1 = .error error ∧
          (client.recorded.send request (client.trial calls start).2).2.stream.2.reads =
            (client.trial calls start).2.stream.2.reads := by
  have hpending := Pending.trial client calls start
  rcases exists_account client calls start with ⟨_, received, _, rest, haccount⟩
  refine ⟨hpending.awaiting_iff, hpending.spaced, ⟨received, rest, haccount.decoded,
    haccount.taken, fun hopen => (haccount.open_clean hopen).2, haccount.rest_short⟩, ?_, ?_⟩
  · intro hp
    exact putsOff_of_awaiting client.recorded hp
  · intro request error h
    exact reads_send_of_error h

/-- Five bytes are too many for a limit of four, but a client that awaits a
    response does not get to see that. -/
example :
    let written := ((plain 4).write [1] (.fresh ⟨[], [], [], [], []⟩)).2
    written.phase = .awaiting ∧
      ((plain 4).write [1, 2, 3, 4, 5] written).1 = .error .responsePending := by
  cbv

end FramedIpc.Client
