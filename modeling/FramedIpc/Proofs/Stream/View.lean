import FramedIpc.Client.Blocking
import FramedIpc.Stream.Ledger
import FramedIpc.Stream.Whole

/-!
# Streams Seen Through a View

A state of a stream may hold more than the stream: notes of the calls on it, or
the state of something else that stands beside it. A view that forgets the rest
shows the stream, if every call does under the view what the call does to the
stream. Then nobody who only makes calls can tell the two apart, whether they
are made one by one, in loops, for a frame, or by a client.

## Main definitions

* `Stream.Shows`: A view of one stream's states shows another stream.
* `Stream.beside`: A stream with something beside it.

## Theorems

* `Shows.trans`: A view of a view.
* `beside_shows`, `recorded_shows`: What stands beside is not seen.
* `Shows.readWhole`, `Shows.writeWhole`, `Shows.flushWhole`: Loops are shown.
* `Shows.readFrame`, `Shows.writeFrame`: So are frames.
* `Shows.clientSend`, `Shows.clientClose`: So are the calls of a client.
-/

namespace FramedIpc.Stream

variable {σ σ' σ'' : Type}

/-- Whether a view of the states of a stream shows another stream: what each
    call does, as far as it is seen, is what the call does to the other. -/
structure Shows (seen : Stream σ) (io : Stream σ') (view : σ' → σ) : Prop where
  read : ∀ n s, seen.read n (view s) = ((io.read n s).1, view (io.read n s).2)
  write : ∀ bs s, seen.write bs (view s) = ((io.write bs s).1, view (io.write bs s).2)
  flush : ∀ s, seen.flush (view s) = ((io.flush s).1, view (io.flush s).2)
  shutdown : ∀ s, seen.shutdown (view s) = ((io.shutdown s).1, view (io.shutdown s).2)

/-- A stream with something beside it that no call touches. -/
def beside (io : Stream σ) (α : Type) : Stream (σ × α) where
  read n s := ((io.read n s.1).1, ((io.read n s.1).2, s.2))
  write bs s := ((io.write bs s.1).1, ((io.write bs s.1).2, s.2))
  flush s := ((io.flush s.1).1, ((io.flush s.1).2, s.2))
  shutdown s := ((io.shutdown s.1).1, ((io.shutdown s.1).2, s.2))
  patience s := io.patience s.1
  read_le n s := io.read_le n s.1
  write_le bs s := io.write_le bs s.1
  read_interrupts n s := io.read_interrupts n s.1
  write_interrupts bs s := io.write_interrupts bs s.1
  flush_interrupts s := io.flush_interrupts s.1

theorem beside_shows (io : Stream σ) (α : Type) : Shows io (io.beside α) Prod.fst where
  read _ _ := rfl
  write _ _ := rfl
  flush _ := rfl
  shutdown _ := rfl

theorem recorded_shows (io : Stream σ) : Shows io io.recorded Prod.fst where
  read _ _ := rfl
  write _ _ := rfl
  flush _ := rfl
  shutdown _ := rfl

variable {seen : Stream σ} {io : Stream σ'} {view : σ' → σ}

/-- A view of a view. -/
theorem Shows.trans {behind : Stream σ''} {further : σ'' → σ'} (h : Shows seen io view)
    (h' : Shows io behind further) : Shows seen behind (fun s => view (further s)) where
  read n s := by rw [h.read, h'.read]
  write bs s := by rw [h.write, h'.write]
  flush s := by rw [h.flush, h'.flush]
  shutdown s := by rw [h.shutdown, h'.shutdown]

section Loops

theorem Shows.read_of {n : Nat} {s s' : σ'} {outcome : Except Fault Bytes} (h : Shows seen io view)
    (hr : io.read n s = (outcome, s')) : seen.read n (view s) = (outcome, view s') := by
  rw [h.read, hr]

theorem Shows.write_of {bs : Bytes} {s s' : σ'} {outcome : Except Fault Nat}
    (h : Shows seen io view) (hw : io.write bs s = (outcome, s')) :
    seen.write bs (view s) = (outcome, view s') := by
  rw [h.write, hw]

theorem Shows.flush_of {s s' : σ'} {outcome : Except Fault Unit} (h : Shows seen io view)
    (hf : io.flush s = (outcome, s')) : seen.flush (view s) = (outcome, view s') := by
  rw [h.flush, hf]

theorem Shows.readWhole (h : Shows seen io view) {n : Nat} {s s' : σ'}
    {outcome : Except Fault Bytes} (hr : io.readWhole n s = (outcome, s')) :
    seen.readWhole n (view s) = (outcome, view s') := by
  -- By the rounds of the loop on the stream behind the view; the loop on the
  -- stream that is seen makes the same rounds, since each call answers alike.
  fun_induction Stream.readWhole io n s generalizing outcome with
  | case1 s =>
      cases hr
      exact readWhole_zero seen _
  | case2 n s hn s₁ hc =>
      cases hr
      exact readWhole_of_end hn (h.read_of hc)
  | case3 n s hn b bs s₁ hc more s₂ hmore ih =>
      cases hr
      rw [readWhole_of_some hn (List.cons_ne_nil b bs) (h.read_of hc), ih hmore]
      rfl
  | case4 n s hn b bs s₁ hc fault s₂ hmore ih =>
      cases hr
      rw [readWhole_of_some hn (List.cons_ne_nil b bs) (h.read_of hc), ih hmore]
      rfl
  | case5 n s hn fault s₁ hc hi hlt ih =>
      rw [readWhole_of_fault hn (h.read_of hc), if_pos hi]
      exact ih hr
  | case6 n s hn fault s₁ hc hi =>
      cases hr
      rw [readWhole_of_fault hn (h.read_of hc), if_neg hi]

theorem Shows.writeWhole (h : Shows seen io view) {bs : Bytes} {s s' : σ'}
    {outcome : Except Fault Bool} (hw : io.writeWhole bs s = (outcome, s')) :
    seen.writeWhole bs (view s) = (outcome, view s') := by
  fun_induction Stream.writeWhole io bs s generalizing outcome with
  | case1 bs s hbs =>
      cases hw
      rw [List.isEmpty_iff.mp hbs]
      exact writeWhole_nil seen _
  | case2 bs s hbs s₁ hc =>
      cases hw
      exact writeWhole_of_none (mt List.isEmpty_iff.mpr hbs) (h.write_of hc)
  | case3 bs s hbs n s₁ hc hle ih =>
      rw [writeWhole_of_some (mt List.isEmpty_iff.mpr hbs) (Nat.succ_ne_zero n) (h.write_of hc)]
      exact ih hw
  | case4 bs s hbs fault s₁ hc hi hlt ih =>
      rw [writeWhole_of_fault (mt List.isEmpty_iff.mpr hbs) (h.write_of hc), if_pos hi]
      exact ih hw
  | case5 bs s hbs fault s₁ hc hi =>
      cases hw
      rw [writeWhole_of_fault (mt List.isEmpty_iff.mpr hbs) (h.write_of hc), if_neg hi]

theorem Shows.flushWhole (h : Shows seen io view) {s s' : σ'} {outcome : Except Fault Unit}
    (hf : io.flushWhole s = (outcome, s')) : seen.flushWhole (view s) = (outcome, view s') := by
  fun_induction Stream.flushWhole io s generalizing outcome with
  | case1 s s₁ hc =>
      cases hf
      exact flushWhole_of_done (h.flush_of hc)
  | case2 s fault s₁ hc hi hlt ih =>
      rw [flushWhole_of_fault (h.flush_of hc), if_pos hi]
      exact ih hf
  | case3 s fault s₁ hc hi =>
      cases hf
      rw [flushWhole_of_fault (h.flush_of hc), if_neg hi]

end Loops

section Frames

open FramedIpc.Frame

theorem Shows.readFrame (h : Shows seen io view) (max : Nat) (s : σ') :
    Frame.read seen max (view s) = ((Frame.read io max s).1, view (Frame.read io max s).2) := by
  unfold Frame.read
  -- Header and payload are loops; what is decided between them is decided by
  -- the bytes, which are the same on both sides.
  rcases hstart : io.readWhole Header.size s with ⟨fault | start, s₁⟩
  · rw [h.readWhole hstart]
  rw [h.readWhole hstart]
  simp only []
  rcases Header.split? start with _ | ⟨header, rest⟩
  · by_cases he : start.isEmpty = true
    · simp only [he, if_true]
    · simp only [he, Bool.false_eq_true, if_false]
  by_cases hmax : max < header.length
  · simp only [hmax, if_true]
  simp only [hmax, if_false, readPayload]
  rcases hbody : io.readWhole header.length s₁ with ⟨fault | payload, s₂⟩
  · rw [h.readWhole hbody]
  · rw [h.readWhole hbody]
    by_cases hlen : payload.length < header.length
    · simp only [hlen, if_true]
    · simp only [hlen, if_false]

theorem Shows.writeFrame (h : Shows seen io view) (max : Nat) (payload : Bytes) (s : σ') :
    Frame.write seen max payload (view s) =
      ((Frame.write io max payload s).1, view (Frame.write io max payload s).2) := by
  unfold Frame.write
  rcases encodeWithin max payload with error | frame
  · rfl
  simp only []
  rcases hwhole : io.writeWhole frame s with ⟨fault | _ | _, s₁⟩
  · rw [h.writeWhole hwhole]
  · rw [h.writeWhole hwhole]
  rw [h.writeWhole hwhole]
  simp only []
  rcases hflush : io.flushWhole s₁ with ⟨fault | _, s₂⟩
  · rw [h.flushWhole hflush]
  · rw [h.flushWhole hflush]

end Frames

section Clients

variable {ρ τ : Type}

/-- The state of a client as it is seen through a view. -/
def seenState (view : σ' → σ) (s : Client.State σ') : Client.State σ :=
  ⟨view s.stream, s.phase⟩

theorem Shows.clientWrite (h : Shows seen io view) (codec : Codec ρ τ) (max : Nat) (request : ρ)
    (s : Client.State σ') :
    Client.write ⟨codec, seen, max⟩ request (seenState view s) =
      ((Client.write ⟨codec, io, max⟩ request s).1,
        seenState view (Client.write ⟨codec, io, max⟩ request s).2) := by
  rcases s with ⟨stream, phase⟩
  unfold Client.write seenState
  cases phase with
  | closed => rfl
  | awaiting => rfl
  | idle =>
      rcases codec.encode request with cause | payload
      · rfl
      simp only [h.writeFrame]
      rcases Frame.write io max payload stream with ⟨error | _, stream'⟩
      · rfl
      · rfl

theorem Shows.clientRead (h : Shows seen io view) (codec : Codec ρ τ) (max : Nat)
    (s : Client.State σ') :
    Client.read ⟨codec, seen, max⟩ (seenState view s) =
      ((Client.read ⟨codec, io, max⟩ s).1,
        seenState view (Client.read ⟨codec, io, max⟩ s).2) := by
  rcases s with ⟨stream, phase⟩
  unfold Client.read seenState
  cases phase with
  | closed => rfl
  | awaiting =>
      simp only [h.readFrame]
      rcases Frame.read io max stream with ⟨error | payload, stream'⟩
      · rfl
      · rfl
  | idle =>
      simp only [h.readFrame]
      rcases Frame.read io max stream with ⟨error | payload, stream'⟩
      · rfl
      · rfl

theorem Shows.clientSend (h : Shows seen io view) (codec : Codec ρ τ) (max : Nat) (request : ρ)
    (s : Client.State σ') :
    Client.send ⟨codec, seen, max⟩ request (seenState view s) =
      ((Client.send ⟨codec, io, max⟩ request s).1,
        seenState view (Client.send ⟨codec, io, max⟩ request s).2) := by
  rw [Client.send, Client.send, h.clientWrite]
  rcases Client.write ⟨codec, io, max⟩ request s with ⟨error | _, s'⟩
  · rfl
  · exact h.clientRead codec max s'

theorem Shows.clientClose (h : Shows seen io view) (codec : Codec ρ τ) (max : Nat)
    (s : Client.State σ') :
    Client.close ⟨codec, seen, max⟩ (seenState view s) =
      seenState view (Client.close ⟨codec, io, max⟩ s) := by
  rcases s with ⟨stream, phase⟩
  unfold Client.close seenState
  cases phase with
  | closed => rfl
  | awaiting => simp only [h.shutdown]
  | idle => simp only [h.shutdown]

end Clients

end FramedIpc.Stream
