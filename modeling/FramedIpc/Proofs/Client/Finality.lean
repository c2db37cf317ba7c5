import FramedIpc.Proofs.Client.Account
import FramedIpc.Proofs.Client.Openness

/-!
# A Closed Client Stays Closed

A client can be closed in many ways: by its user, or by any of the errors that
leave the stream without a place from which to go on. Once it is closed it
does not matter how. Every call is answered by that alone, nothing reaches the
stream, and so nothing can ever open the client again. Whatever the codec and
the stream are by then, they are not asked: a client that had others in their
place would answer the same.

The stream itself is shut down by a close and by nothing else, and a close
does so on an open client only. Since that leaves it closed, whether or not
the stream went down without a fault, a stream is shut down once at most, and
never after an error has cost the client its connection.

## Main definitions

* `Call.shuts`: Whether a call shuts the stream down.
* `Unshut`: A stream is shut down once at most, and not while it is in use.

## Theorems

* `answers_of_closed`, `run_of_closed`: A closed client answers that it is, and
  stays as it is.
* `shutdowns_after`: Only a close of an open client shuts the stream down.
* `Unshut.halvesKeep`: Every half and every close keep to once at most.
* `closed_is_final`: Closed is final.
-/

namespace FramedIpc.Client

variable {ρ τ σ : Type}

/-- Whether a call shuts the stream down of a client in a phase. -/
def Call.shuts (phase : Phase) : Call ρ → Bool
  | .close => !phase.isClosed
  | _ => false

/-- A closed client answers every call by that alone. -/
theorem answers_of_closed {client : Client ρ τ σ} {s : State σ} (hc : s.phase = .closed)
    (calls : List (Call ρ)) : client.answers calls s = calls.map Call.turnedAway := by
  induction calls with
  | nil => rfl
  | cons call calls ih =>
      rw [answers, after_of_closed call hc, answer_of_closed call hc, ih, List.map_cons]

/-- And stays as it is. -/
theorem run_of_closed {client : Client ρ τ σ} {s : State σ} (hc : s.phase = .closed)
    (calls : List (Call ρ)) : (run client calls s).2 = s := by
  induction calls with
  | nil => rfl
  | cons call calls ih =>
      rw [run, after_of_closed call hc]
      exact ih

section Shutdowns

variable {client : Client ρ τ σ} {s s' : State (σ × Ledger)} {request : ρ}

theorem shutdowns_write {outcome : Except Error Unit}
    (h : client.recorded.write request s = (outcome, s')) :
    s'.stream.2.shutdowns = s.stream.2.shutdowns := by
  refine notes_write (Q := fun ledger => ledger.shutdowns = s.stream.2.shutdowns) ?_ ?_ rfl h
  · intro bs outcome ledger hsame
    rw [Ledger.shutdowns_noteWrite, hsame]
  · intro ledger hsame
    exact hsame

theorem shutdowns_read {outcome : Except Error τ}
    (h : client.recorded.read s = (outcome, s')) :
    s'.stream.2.shutdowns = s.stream.2.shutdowns := by
  refine notes_read (Q := fun ledger => ledger.shutdowns = s.stream.2.shutdowns) ?_ rfl h
  intro outcome ledger hsame
  rw [Ledger.shutdowns_noteRead, hsame]

/-- A close of an open client shuts the stream down, and no other call. -/
theorem shutdowns_after (client : Client ρ τ σ) (call : Call ρ) (s : State (σ × Ledger)) :
    (call.after client.recorded s).stream.2.shutdowns =
      s.stream.2.shutdowns + if call.shuts s.phase then 1 else 0 := by
  cases call with
  | send request =>
      simp only [Call.after, Call.shuts, Bool.false_eq_true, if_false, Nat.add_zero, send_eq]
      rcases hw : client.recorded.write request s with ⟨error | _, s₁⟩
      · exact shutdowns_write hw
      · -- Neither half does.
        have hread := shutdowns_read (Prod.eta (client.recorded.read s₁)).symm
        exact hread.trans (shutdowns_write hw)
  | write request => exact shutdowns_write (Prod.eta _).symm
  | read => exact shutdowns_read (Prod.eta _).symm
  | close =>
      by_cases hc : s.phase = .closed
      · simp only [Call.after, Call.shuts, close_of_closed hc, hc, Phase.isClosed, Bool.not_true,
          Bool.false_eq_true, if_false, Nat.add_zero]
      · have hopen : s.phase.isClosed = false := by
          cases hp : s.phase with
          | idle => rfl
          | awaiting => rfl
          | closed => exact absurd hp hc
        simp only [Call.after, Call.shuts, close_of_open hc, hopen, Bool.not_false, if_true]
        rfl

end Shutdowns

/-- A stream is shut down once at most, and not while the client is open. -/
structure Unshut (s : State (σ × Ledger)) : Prop where
  once : s.stream.2.shutdowns ≤ 1
  not_open : s.phase ≠ .closed → s.stream.2.shutdowns = 0

/-- Every half and every close keep to it. -/
theorem Unshut.halvesKeep (client : Client ρ τ σ) :
    HalvesKeep client.recorded (fun _ s => Unshut s) := by
  constructor
  · intro _ s request outcome s' h hw
    have hsame := shutdowns_write hw
    refine ⟨hsame ▸ h.once, fun hopen => hsame.trans (h.not_open fun hc => hopen ?_)⟩
    rw [write_of_closed request hc] at hw
    cases hw
    exact hc
  · intro _ s outcome s' h hr
    have hsame := shutdowns_read hr
    refine ⟨hsame ▸ h.once, fun hopen => hsame.trans (h.not_open fun hc => hopen ?_)⟩
    rw [read_of_closed hc] at hr
    cases hr
    exact hc
  · intro _ s h
    have hclosed := phase_close client.recorded s
    refine ⟨?_, fun hopen => absurd hclosed hopen⟩
    by_cases hc : s.phase = .closed
    · rw [close_of_closed hc]
      exact h.once
    · -- The first time is the last: the client was open, and is no more.
      have hshut := shutdowns_after client .close s
      rw [h.not_open hc] at hshut
      change (client.recorded.close s).stream.2.shutdowns = _ at hshut
      rw [hshut]
      split
      · omega
      · omega

theorem Unshut.trial (client : Client ρ τ σ) (calls : List (Call ρ)) (start : σ) :
    Unshut (client.trial calls start).2 := by
  have hfresh : Unshut (.fresh (start, .blank) : State (σ × Ledger)) :=
    ⟨Nat.zero_le 1, fun _ => rfl⟩
  exact (Unshut.halvesKeep client).trial hfresh calls

theorem trial_append (client : Client ρ τ σ) (calls more : List (Call ρ)) (start : σ) :
    (client.trial (calls ++ more) start).2 =
      (run client.recorded more (client.trial calls start).2).2 := by
  rw [trial, run_append]
  rfl

/-- Closed is final. Once a client is closed, every call is answered by that
    alone, whatever codec and stream it has; it stays as it is, and so does the
    ledger, so that no call has reached the stream. In all its life a client
    shuts its stream down once at most, exactly when an open client is closed
    by its user, and never if another call has cost it the connection. A close
    leaves it closed whether or not that goes well. -/
theorem closed_is_final (client : Client ρ τ σ) (calls : List (Call ρ)) (start : σ) :
    ((client.trial calls start).2.phase = .closed →
      ∀ (other : Client ρ τ (σ × Ledger)) (later : List (Call ρ)),
        other.answers later (client.trial calls start).2 = later.map Call.turnedAway ∧
          (run other later (client.trial calls start).2).2 = (client.trial calls start).2) ∧
    (∀ call, (client.trial (calls ++ [call]) start).2.stream.2.shutdowns =
      (client.trial calls start).2.stream.2.shutdowns +
        if call.shuts (client.trial calls start).2.phase then 1 else 0) ∧
    (client.trial calls start).2.stream.2.shutdowns ≤ 1 ∧
    (∀ call later, call ≠ .close → (client.trial calls start).2.phase ≠ .closed →
      (client.trial (calls ++ [call]) start).2.phase = .closed →
        (client.trial (calls ++ [call] ++ later) start).2.stream.2.shutdowns = 0) ∧
    (client.trial (calls ++ [.close]) start).2.phase = .closed := by
  have hunshut := Unshut.trial client calls start
  have hafter : ∀ call, (client.trial (calls ++ [call]) start).2 =
      call.after client.recorded (client.trial calls start).2 := by
    intro call
    rw [trial_append]
    rfl
  refine ⟨?_, ?_, hunshut.once, ?_, ?_⟩
  · intro hc other later
    exact ⟨answers_of_closed hc later, run_of_closed hc later⟩
  · intro call
    rw [hafter]
    exact shutdowns_after client call _
  · intro call later hne hopen hlost
    have hshut := shutdowns_after client call (client.trial calls start).2
    have hnot : call.shuts (client.trial calls start).2.phase = false := by
      cases call with
      | close => exact absurd rfl hne
      | send request => rfl
      | write request => rfl
      | read => rfl
    rw [hnot, hunshut.not_open hopen] at hshut
    -- The connection was lost with nothing shut down, and so it stays.
    rw [trial_append, run_of_closed hlost, hafter]
    exact hshut
  · rw [hafter]
    exact phase_close client.recorded _

end FramedIpc.Client
