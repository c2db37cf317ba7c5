import FramedIpc.Frame.Transport
import FramedIpc.Proofs.Frame.Pieces
import FramedIpc.Proofs.Stream.Waiting

/-!
# What Framed Transports Lose and What They Wait For

Two things can be said of a framed transport whatever its stream does, and
whether its calls are waited for or given up. No byte of a frame is lost on the
way out: what the stream has not taken is in the buffer still, behind what it
has taken (`sent`). And none is lost on the way in: what the stream has given
are the frames that were taken off, and then the buffer (`Holds`). Neither side
touches anything of the other.

The rest needs a stream that serves. Then no operation waits for ever. A flush
waits with less to write each time, or with one wait fewer to come; a frame
that is waited for comes nearer because the inbound buffer grows, and it
cannot grow beyond the bytes there are. What a transport reads ahead is no
loss: the bytes in its buffer and those that the stream still has are looked
at as one row, and the frame that comes is the one at the front of the row
(`next_of_serves`).

## Main definitions

* `sent`: The bytes that went out or are to go out.
* `Drains`, `Outward`: What calls on the outbound side can do.
* `Holds`: These frames and what is in the buffer are all that came in.
* `Transport.Serves`: No frame is half out, and these bytes are to come in.

## Theorems

* `drains_pollWrite`, `drains_pollFlush`, `drains_pollClose`: The outbound
  side loses nothing.
* `send_cases`, `next_cases`: What is left of a call, given up or not.
* `send_of_brings`: A payload that fits goes out behind what was left.
* `send_of_serves`: A payload that fits is written.
* `next_of_serves`: The next frame is the first of all the bytes to come.
-/

namespace FramedIpc.Transport

open FramedIpc.Frame

variable {σ : Type} {io : PolledStream σ} {written : σ → Bytes} {t t' : Transport σ}

/-- The bytes that the stream has taken and those that it has yet to take. -/
def sent (written : σ → Bytes) (t : Transport σ) : Bytes :=
  written t.stream ++ t.outbound

/-- What calls on the outbound side can do: move bytes from the front of the
    buffer to the stream. -/
structure Drains (written : σ → Bytes) (t t' : Transport σ) : Prop where
  sent : t'.sent written = t.sent written
  outbound : t'.outbound.length ≤ t.outbound.length
  inbound : t'.inbound = t.inbound

theorem Drains.refl (written : σ → Bytes) (t : Transport σ) : Drains written t t :=
  ⟨rfl, Nat.le_refl _, rfl⟩

theorem Drains.trans {t₁ t₂ t₃ : Transport σ} (h : Drains written t₁ t₂)
    (h' : Drains written t₂ t₃) : Drains written t₁ t₃ :=
  ⟨h'.sent.trans h.sent, Nat.le_trans h'.outbound h.outbound, h'.inbound.trans h.inbound⟩

theorem Drains.of_written {stream : σ} (h : written stream = written t.stream) :
    Drains written t { t with stream := stream } :=
  ⟨by rw [Transport.sent, Transport.sent, h], Nat.le_refl _, rfl⟩

/-- An empty buffer stays empty, and then nothing is written. -/
theorem Drains.of_empty (h : Drains written t t') (he : t.outbound = []) :
    t'.outbound = [] ∧ written t'.stream = written t.stream := by
  have hlen := h.outbound
  rw [he] at hlen
  have he' := List.eq_nil_of_length_eq_zero (Nat.le_zero.mp hlen)
  have hsent := h.sent
  rw [Transport.sent, Transport.sent, he, he', List.append_nil, List.append_nil] at hsent
  exact ⟨he', hsent⟩

section Drains

variable (ht : io.Tracks written)
include ht

theorem drains_pollWrite (t : Transport σ) : Drains written t (pollWrite io t).2 := by
  fun_induction pollWrite io t with
  | case1 t _ => exact .refl written t
  | case2 t _ stream hw => exact .of_written (ht.write_pending hw)
  | case3 t _ fault stream hw => exact .of_written (ht.write_error hw)
  | case4 t _ stream hw =>
      have hsame := ht.write_ok hw
      rw [List.take_zero, List.append_nil] at hsame
      exact .of_written hsame
  | case5 t _ n stream hw ih =>
      -- What the stream took is what the buffer gives up.
      have hmoved : Drains written t
          { t with stream := stream, outbound := t.outbound.drop (n + 1) } := by
        refine ⟨?_, ?_, rfl⟩
        · rw [Transport.sent, Transport.sent, ht.write_ok hw, List.append_assoc,
            List.take_append_drop]
        · rw [List.length_drop]
          exact Nat.sub_le _ _
      exact hmoved.trans ih

theorem drains_pollFlush (t : Transport σ) : Drains written t (pollFlush io t).2 := by
  have hwrite := drains_pollWrite ht t
  unfold pollFlush
  rcases hp : pollWrite io t with ⟨(error | _) | _, t₁⟩
  · rw [hp] at hwrite
    exact hwrite
  · rw [hp] at hwrite
    rcases hf : io.flush t₁.stream with ⟨(fault | _) | _, stream⟩
    all_goals
      simp only [hf]
      exact hwrite.trans (.of_written (ht.flush hf))
  · rw [hp] at hwrite
    exact hwrite

theorem drains_pollReady (t : Transport σ) : Drains written t (pollReady io t).2 := by
  unfold pollReady
  split
  · exact drains_pollFlush ht t
  · exact .refl written t

theorem drains_pollClose (t : Transport σ) : Drains written t (pollClose io t).2 := by
  have hflush := drains_pollFlush ht t
  unfold pollClose
  rcases hp : pollFlush io t with ⟨(error | _) | _, t₁⟩
  · rw [hp] at hflush
    exact hflush
  · rw [hp] at hflush
    rcases hs : io.shutdown t₁.stream with ⟨(fault | _) | _, stream⟩
    all_goals
      simp only [hs]
      exact hflush.trans (.of_written (ht.shutdown hs))
  · rw [hp] at hflush
    exact hflush

/-- Closing loses nothing either, however soon patience runs out. -/
theorem drains_close (patience : Nat) (t : Transport σ) :
    Drains written t (t.close io patience).2 :=
  await_keeps (fun t₁ h => h.trans (drains_pollClose ht t₁)) patience (.refl written t)

theorem pollNext_outbound (max : Nat) (t : Transport σ) :
    (pollNext io max t).2.outbound = t.outbound ∧
      written (pollNext io max t).2.stream = written t.stream := by
  fun_induction pollNext io max t with
  | case1 => exact ⟨rfl, rfl⟩
  | case2 => exact ⟨rfl, rfl⟩
  | case3 t _ stream hr => exact ⟨rfl, ht.read hr⟩
  | case4 t _ fault stream hr => exact ⟨rfl, ht.read hr⟩
  | case5 t _ stream hr => exact ⟨rfl, ht.read hr⟩
  | case6 t _ b bs stream hr _ ih => exact ⟨ih.1, ih.2.trans (ht.read hr)⟩

end Drains

/-! ## What a call leaves -/

/-- What the stream has given so far are these frames and then what is in the
    buffer. -/
def Holds (taken : σ → Bytes) (heard : List Bytes) (t : Transport σ) : Prop :=
  taken t.stream = wire heard ++ t.inbound

section Receives

variable {taken : σ → Bytes} (hr : io.Receives taken)
include hr

theorem pollWrite_taken (t : Transport σ) : taken (pollWrite io t).2.stream = taken t.stream := by
  fun_induction pollWrite io t with
  | case1 t _ => rfl
  | case2 t _ stream hw => exact hr.write hw
  | case3 t _ fault stream hw => exact hr.write hw
  | case4 t _ stream hw => exact hr.write hw
  | case5 t _ n stream hw ih => exact ih.trans (hr.write hw)

theorem pollFlush_taken (t : Transport σ) : taken (pollFlush io t).2.stream = taken t.stream := by
  have hwrite := pollWrite_taken hr t
  unfold pollFlush
  rcases hp : pollWrite io t with ⟨(error | _) | _, t₁⟩
  · rw [hp] at hwrite
    exact hwrite
  · rw [hp] at hwrite
    rcases hf : io.flush t₁.stream with ⟨(fault | _) | _, stream⟩
    all_goals
      simp only [hf]
      exact (hr.flush hf).trans hwrite
  · rw [hp] at hwrite
    exact hwrite

/-- What comes of one look for a frame: a wait, with all that came in kept; a
    frame, taken off what came in; or the end. -/
theorem pollNext_holds {max : Nat} {heard : List Bytes}
    {answer : Poll (Except Error (Option Bytes))} (h : t.Holds taken heard)
    (hp : pollNext io max t = (answer, t')) :
    (answer = .pending ∧ t'.Holds taken heard) ∨
      (∃ payload, answer = .ready (.ok (some payload)) ∧ Fits max payload ∧
        t'.Holds taken (heard ++ [payload])) ∨
      ∃ outcome, answer = .ready outcome ∧ ∀ payload, outcome ≠ .ok (some payload) := by
  fun_induction pollNext io max t with
  | case1 t error hf =>
      cases hp
      exact Or.inr (Or.inr ⟨_, rfl, nofun⟩)
  | case2 t payload rest hf =>
      cases hp
      rcases eq_of_take hf with ⟨hsplit, hfit⟩
      refine Or.inr (Or.inl ⟨payload, rfl, hfit, ?_⟩)
      rw [Holds, hsplit] at h
      rw [Holds, wire_concat, List.append_assoc]
      exact h
  | case3 t hf stream hread =>
      cases hp
      exact Or.inl ⟨rfl, (hr.read_pending hread).trans h⟩
  | case4 t hf fault stream hread =>
      cases hp
      exact Or.inr (Or.inr ⟨_, rfl, nofun⟩)
  | case5 t hf stream hread =>
      cases hp
      refine Or.inr (Or.inr ⟨_, rfl, fun payload hlast => ?_⟩)
      -- The buffer held no frame before the stream ended, so it holds none now.
      rw [take_of_takeLast (Prod.ext hlast rfl)] at hf
      cases hf
  | case6 t hf b bs stream hread _ ih =>
      refine ih ?_ hp
      rw [Holds, hr.read_ok hread, h, List.append_assoc]

end Receives

/-- The only errors of a flush are faults of the stream. -/
theorem fault_of_pollWrite {error : Error} (h : pollWrite io t = (.ready (.error error), t')) :
    ∃ fault, error = .io fault := by
  fun_induction pollWrite io t with
  | case1 t _ => cases h
  | case2 t _ stream hw => cases h
  | case3 t _ fault stream hw =>
      cases h
      exact ⟨fault, rfl⟩
  | case4 t _ stream hw =>
      cases h
      exact ⟨stuck, rfl⟩
  | case5 t _ n stream hw ih => exact ih h

theorem fault_of_pollFlush {error : Error} (h : pollFlush io t = (.ready (.error error), t')) :
    ∃ fault, error = .io fault := by
  unfold pollFlush at h
  rcases hp : pollWrite io t with ⟨(error' | _) | _, t₁⟩
  · rw [hp] at h
    cases h
    exact fault_of_pollWrite hp
  · rw [hp] at h
    simp only [] at h
    rcases hf : io.flush t₁.stream with ⟨(fault | _) | _, stream⟩
    all_goals rw [hf] at h
    · cases h
      exact ⟨fault, rfl⟩
    · cases h
    · cases h
  · rw [hp] at h
    cases h

/-- A stream that waits leaves all of the buffer where it is. -/
theorem pollFlush_of_wait {stream : σ} (hne : t.outbound ≠ [])
    (hw : io.write t.outbound t.stream = (.pending, stream)) :
    pollFlush io t = (.pending, { t with stream := stream }) := by
  have hpoll : pollWrite io t = (.pending, { t with stream := stream }) := by
    rw [pollWrite, dif_neg (mt List.isEmpty_iff.mp hne), hw]
  rw [pollFlush, hpoll]

/-- What calls on the outbound side do: they move bytes from the front of the
    buffer to the stream, and take nothing in. -/
structure Outward (written taken : σ → Bytes) (t t' : Transport σ) : Prop where
  drains : Drains written t t'
  taken : taken t'.stream = taken t.stream

theorem Outward.refl (written taken : σ → Bytes) (t : Transport σ) : Outward written taken t t :=
  ⟨.refl written t, rfl⟩

theorem Outward.trans {taken : σ → Bytes} {t₁ t₂ t₃ : Transport σ}
    (h : Outward written taken t₁ t₂) (h' : Outward written taken t₂ t₃) :
    Outward written taken t₁ t₃ :=
  ⟨h.drains.trans h'.drains, h'.taken.trans h.taken⟩

/-- A frame at the end of the buffer changes nothing of that. -/
theorem Outward.append {taken : σ → Bytes} (h : Outward written taken t t') (frame : Bytes) :
    Outward written taken { t with outbound := t.outbound ++ frame }
      { t' with outbound := t'.outbound ++ frame } := by
  refine ⟨⟨?_, ?_, h.drains.inbound⟩, h.taken⟩
  · have hsent := h.drains.sent
    simp only [Transport.sent, ← List.append_assoc] at hsent ⊢
    rw [hsent]
  · rw [List.length_append, List.length_append]
    exact Nat.add_le_add_right h.drains.outbound _

theorem Outward.holds {taken : σ → Bytes} {heard : List Bytes} (h : Outward written taken t t')
    (hheld : t.Holds taken heard) : t'.Holds taken heard := by
  rw [Holds, h.taken, h.drains.inbound]
  exact hheld

section Calls

variable {taken : σ → Bytes} {max patience : Nat} (ht : io.Tracks written)
  (hr : io.Receives taken)
include ht hr

theorem outward_pollFlush (t : Transport σ) : Outward written taken t (pollFlush io t).2 :=
  ⟨drains_pollFlush ht t, pollFlush_taken hr t⟩

theorem outward_pollReady (t : Transport σ) : Outward written taken t (pollReady io t).2 := by
  unfold pollReady
  split
  · exact outward_pollFlush ht hr t
  · exact .refl written taken t

/-- A flush loses nothing, given up or not, and fails with nothing but a fault. -/
theorem flush_cases {waited : Waited (Except Error Unit)}
    (h : await (pollFlush io) patience t = (waited, t')) :
    Outward written taken t t' ∧
      ∀ error left, waited = some (.error error, left) → error.isRefusal = false := by
  have hstep {t₁ t₂ : Transport σ} {answer : Poll (Except Error Unit)}
      (h₁ : Outward written taken t t₁) (hp : pollFlush io t₁ = (answer, t₂)) :
      Outward written taken t t₂ := by
    have h₂ := outward_pollFlush ht hr t₁
    rw [hp] at h₂
    exact h₁.trans h₂
  have hcases := await_cases (Outward written taken t)
    (fun answer t₁ => Outward written taken t t₁ ∧
      ∀ error, answer = Except.error error → ∃ fault, error = Error.io fault)
    hstep (fun h₁ hp => ⟨hstep h₁ hp, fun error he => fault_of_pollFlush (he ▸ hp)⟩)
    (.refl written taken t) h
  rcases hcases with ⟨rfl, h'⟩ | ⟨answer, left, rfl, h', hfault⟩
  · exact ⟨h', nofun⟩
  · refine ⟨h', fun error left' he => ?_⟩
    cases he
    rcases hfault error rfl with ⟨fault, rfl⟩
    rfl

/-- What a send leaves behind, however soon patience runs out. Its frame is in
    the buffer or has gone out, or is partly here and partly there; or nothing
    of it is, and then the send has not succeeded. -/
theorem send_cases {payload : Bytes} {waited : Waited (Except Error Unit)}
    (h : send io max payload patience t = (waited, t')) :
    (Outward written taken t t' ∧ ∀ left, waited ≠ some (.ok (), left)) ∨
      (Fits max payload ∧
        Outward written taken { t with outbound := t.outbound ++ framed payload } t' ∧
        ∀ error left, waited = some (.error error, left) → error.isRefusal = false) := by
  unfold send at h
  rcases hready : await (pollReady io) patience t with ⟨ready, t₁⟩
  have hroom : Outward written taken t (await (pollReady io) patience t).2 :=
    await_keeps (fun t₁ h => h.trans (outward_pollReady ht hr t₁)) patience
      (.refl written taken t)
  rw [hready] at h hroom
  rcases ready with _ | ⟨error | _, left⟩
  · cases h
    exact Or.inl ⟨hroom, nofun⟩
  · cases h
    exact Or.inl ⟨hroom, nofun⟩
  simp only [append] at h
  rcases hencode : encodeWithin max payload with error | frame
  · rw [hencode] at h
    cases h
    exact Or.inl ⟨hroom, nofun⟩
  rw [hencode] at h
  rcases encodeWithin_eq_ok_iff.mp hencode with ⟨hfit, rfl⟩
  -- From here on the frame is in the buffer, and a flush loses nothing.
  rcases flush_cases ht hr h with ⟨hflushed, hfault⟩
  exact Or.inr ⟨hfit, (hroom.append _).trans hflushed, hfault⟩

/-- What waiting for a frame leaves behind, however soon patience runs out.
    Nothing has gone out; and if no answer came, all that came in is kept. -/
theorem next_cases {heard : List Bytes} {waited : Waited (Except Error (Option Bytes))}
    (h : next io max patience t = (waited, t')) (hheld : t.Holds taken heard) :
    t'.sent written = t.sent written ∧
      ((waited = none ∧ t'.Holds taken heard) ∨
        (∃ payload left, waited = some (.ok (some payload), left) ∧ Fits max payload ∧
          t'.Holds taken (heard ++ [payload])) ∨
        ∃ outcome left, waited = some (outcome, left) ∧
          ∀ payload, outcome ≠ .ok (some payload)) := by
  have hsent : (next io max patience t).2.sent written = t.sent written := by
    have hstep (t₁ : Transport σ) (h₁ : t₁.sent written = t.sent written) :
        (pollNext io max t₁).2.sent written = t.sent written := by
      rcases pollNext_outbound ht max t₁ with ⟨hout, hwritten⟩
      rw [Transport.sent, hout, hwritten]
      exact h₁
    exact await_keeps hstep patience rfl
  rw [h] at hsent
  refine ⟨hsent, ?_⟩
  have hcases := await_cases (Holds taken heard)
    (fun outcome t₁ => (∃ payload, outcome = Except.ok (some payload) ∧ Fits max payload ∧
        t₁.Holds taken (heard ++ [payload])) ∨ ∀ payload, outcome ≠ Except.ok (some payload))
    (fun h₁ hp => by
      rcases pollNext_holds hr h₁ hp with ⟨_, h₂⟩ | ⟨_, hready, _⟩ | ⟨_, hready, _⟩
      · exact h₂
      · cases hready
      · cases hready)
    (fun h₁ hp => by
      rcases pollNext_holds hr h₁ hp with ⟨hpending, _⟩ | ⟨payload, hready, h₂⟩ | ⟨_, hready, h₂⟩
      · cases hpending
      · cases hready
        exact Or.inl ⟨payload, rfl, h₂⟩
      · cases hready
        exact Or.inr h₂)
    hheld h
  rcases hcases with hnone | ⟨outcome, left, rfl, ⟨payload, rfl, h'⟩ | hother⟩
  · exact Or.inl hnone
  · exact Or.inr (Or.inl ⟨payload, left, rfl, h'⟩)
  · exact Or.inr (Or.inr ⟨outcome, left, rfl, hother⟩)

end Calls

/-! ## Streams that serve -/

/-- The bytes that are to come in: those in the buffer, and those ahead that
    the stream stands in a relation to. -/
def Brings (R : σ → Bytes → Prop) (t : Transport σ) (row : Bytes) : Prop :=
  ∃ ahead, t.inbound ++ ahead = row ∧ R t.stream ahead

/-- No frame is half out, these bytes are to come in, and the stream serves. -/
def Serves (io : PolledStream σ) (t : Transport σ) (row : Bytes) : Prop :=
  t.Brings io.Serves row ∧ t.outbound = []

section Service

variable {waits : σ → Nat} {R : σ → Bytes → Prop} (hR : io.ServiceStep waits R)
include hR

/-- Handing over the buffer leaves it empty, or waits. -/
theorem pollWrite_of_service {left : Bytes} {answer : Poll (Except Error Unit)}
    (h : R t.stream left) (hp : pollWrite io t = (answer, t')) :
    R t'.stream left ∧
      ((answer = .ready (.ok ()) ∧ t'.outbound = [] ∧
          (t' = t ∨ t'.outbound.length < t.outbound.length)) ∨
        (answer = .pending ∧
          Nearer (fun t => t.outbound.length) (fun t => waits t.stream) t' t)) := by
  fun_induction pollWrite io t with
  | case1 t he =>
      cases hp
      exact ⟨h, Or.inl ⟨rfl, List.isEmpty_iff.mp he, Or.inl rfl⟩⟩
  | case2 t he stream hw =>
      cases hp
      rcases hR.writeWaits h (mt List.isEmpty_iff.mpr he) hw with ⟨h', hless⟩
      exact ⟨h', Or.inr ⟨rfl, Or.inr ⟨rfl, hless⟩⟩⟩
  | case3 t he fault stream hw =>
      rcases hR.takes h (mt List.isEmpty_iff.mpr he) hw with ⟨_, ho, _⟩
      cases ho
  | case4 t he stream hw =>
      rcases hR.takes h (mt List.isEmpty_iff.mpr he) hw with ⟨_, ho, hpos, _⟩
      cases ho
      exact absurd hpos (Nat.lt_irrefl 0)
  | case5 t he n stream hw ih =>
      rcases hR.takes h (mt List.isEmpty_iff.mpr he) hw with ⟨_, _, _, h₁⟩
      have hshorter : (t.outbound.drop (n + 1)).length < t.outbound.length := by
        have hpos := List.length_pos_iff.mpr (mt List.isEmpty_iff.mpr he)
        rw [List.length_drop]
        omega
      rcases ih h₁ hp with ⟨h', ⟨ho, hempty, hdone⟩ | ⟨ho, hnear⟩⟩
      · refine ⟨h', Or.inl ⟨ho, hempty, Or.inr ?_⟩⟩
        rcases hdone with rfl | hdone
        · exact hshorter
        · exact Nat.lt_trans hdone hshorter
      · refine ⟨h', Or.inr ⟨ho, Or.inl ?_⟩⟩
        rcases hnear with hnear | ⟨hsame, _⟩
        · exact Nat.lt_trans hnear hshorter
        · exact hsame ▸ hshorter

theorem pollFlush_of_service {left : Bytes} {answer : Poll (Except Error Unit)}
    (h : R t.stream left) (hp : pollFlush io t = (answer, t')) :
    R t'.stream left ∧
      ((answer = .ready (.ok ()) ∧ t'.outbound = []) ∨
        (answer = .pending ∧
          Nearer (fun t => t.outbound.length) (fun t => waits t.stream) t' t)) := by
  unfold pollFlush at hp
  rcases hw : pollWrite io t with ⟨written, t₁⟩
  rw [hw] at hp
  rcases pollWrite_of_service hR h hw with ⟨h₁, ⟨rfl, hempty, hdone⟩ | ⟨rfl, hnear⟩⟩
  · simp only [] at hp
    rcases hf : io.flush t₁.stream with ⟨outcome | _, stream⟩
    · rcases hR.flushes h₁ hf with ⟨rfl, h'⟩
      simp only [hf] at hp
      cases hp
      exact ⟨h', Or.inl ⟨rfl, hempty⟩⟩
    · rcases hR.flushWaits h₁ hf with ⟨h', hless⟩
      simp only [hf] at hp
      cases hp
      refine ⟨h', Or.inr ⟨rfl, ?_⟩⟩
      -- The flush waits; if nothing was written before it, it alone did.
      rcases hdone with rfl | hdone
      · exact Or.inr ⟨rfl, hless⟩
      · exact Or.inl hdone
  · cases hp
    exact ⟨h₁, Or.inr ⟨rfl, hnear⟩⟩

/-- The frame at the front of the bytes to come is taken off, or is waited
    for with more of them in the buffer. -/
theorem pollNext_of_service {max : Nat} {row : Bytes}
    {answer : Poll (Except Error (Option Bytes))} (h : t.Brings R row)
    (hp : pollNext io max t = (answer, t')) :
    (answer = .ready (takeLast max row).1 ∧
        ∀ payload rest, take max row = .ok (some (payload, rest)) → t'.Brings R rest) ∨
      (answer = .pending ∧ t'.Brings R row ∧
        (t.inbound.length < t'.inbound.length ∨
          t'.inbound = t.inbound ∧ waits t'.stream < waits t.stream)) := by
  have hsize : 0 < readSize := by decide
  fun_induction pollNext io max t with
  | case1 t error hf =>
      cases hp
      rcases h with ⟨ahead, rfl, _⟩
      have hrow := take_append_of_error hf ahead
      rw [takeLast_of_error hrow, hrow]
      exact Or.inl ⟨rfl, fun payload rest hframe => by cases hframe⟩
  | case2 t payload rest hf =>
      cases hp
      rcases h with ⟨ahead, rfl, hs⟩
      have hrow := take_append_of_frame hf ahead
      rw [takeLast_of_frame hrow, hrow]
      refine Or.inl ⟨rfl, fun payload' rest' hframe => ?_⟩
      cases hframe
      exact ⟨ahead, rfl, hs⟩
  | case3 t hf stream hr =>
      cases hp
      rcases h with ⟨ahead, rfl, hs⟩
      rcases hR.readWaits hs hsize hr with ⟨hs', hless⟩
      exact Or.inr ⟨rfl, ⟨ahead, rfl, hs'⟩, Or.inr ⟨rfl, hless⟩⟩
  | case4 t hf fault stream hr =>
      rcases h with ⟨ahead, rfl, hs⟩
      rcases hR.gives hs hsize hr with ⟨_, _, ho, _⟩
      cases ho
  | case5 t hf stream hr =>
      -- The stream has ended, so the buffer is all there is.
      cases hp
      rcases h with ⟨ahead, rfl, hs⟩
      rcases hR.gives hs hsize hr with ⟨_, _, ho, _, _, hend⟩
      cases ho
      rw [hend rfl, List.append_nil, hf]
      exact Or.inl ⟨rfl, fun payload rest hframe => by cases hframe⟩
  | case6 t hf b bs stream hr _ ih =>
      rcases h with ⟨ahead, rfl, hs⟩
      rcases hR.gives hs hsize hr with ⟨_, ahead', ho, rfl, hs', _⟩
      cases ho
      rcases ih ⟨ahead', List.append_assoc _ _ _, hs'⟩ hp with hready | ⟨ho, hbrings, hmore⟩
      · exact Or.inl hready
      · refine Or.inr ⟨ho, hbrings, Or.inl ?_⟩
        simp only [List.length_append, List.length_cons] at hmore
        rcases hmore with hmore | ⟨hmore, _⟩
        · omega
        · rw [hmore, List.length_append, List.length_cons]
          omega

end Service

/-- A frame has come nearer when the buffer has grown: it cannot grow beyond
    the bytes there are. -/
theorem nearer_of_more {R : σ → Bytes → Prop} {waits : σ → Nat} {row : Bytes}
    (h : t'.Brings R row)
    (hmore : t.inbound.length < t'.inbound.length ∨
      t'.inbound = t.inbound ∧ waits t'.stream < waits t.stream) :
    Nearer (fun t => row.length - t.inbound.length) (fun t => waits t.stream) t' t := by
  rcases h with ⟨ahead, rfl, _⟩
  rcases hmore with hmore | ⟨hsame, hless⟩
  · refine Or.inl ?_
    simp only [List.length_append]
    omega
  · exact Or.inr ⟨by simp only [hsame], hless⟩

theorem pollReady_of_service {waits : σ → Nat} {R : σ → Bytes → Prop}
    (hR : io.ServiceStep waits R) {left : Bytes} {answer : Poll (Except Error Unit)}
    (h : R t.stream left) (hp : pollReady io t = (answer, t')) :
    R t'.stream left ∧
      (answer = .ready (.ok ()) ∨
        (answer = .pending ∧
          Nearer (fun t => t.outbound.length) (fun t => waits t.stream) t' t)) := by
  unfold pollReady at hp
  split at hp
  · rcases pollFlush_of_service hR h hp with ⟨h', ⟨ho, _⟩ | hwait⟩
    · exact ⟨h', Or.inl ho⟩
    · exact ⟨h', Or.inr hwait⟩
  · cases hp
    exact ⟨h, Or.inl rfl⟩

theorem pollReady_of_empty (he : t.outbound = []) : pollReady io t = (.ready (.ok ()), t) := by
  rw [pollReady, he]
  rfl

/-- A payload that is refused touches nothing. -/
theorem send_of_refused {max : Nat} {payload : Bytes} {error : Error} (he : t.outbound = [])
    (h : encodeWithin max payload = .error error) (patience : Nat) :
    send io max payload patience t = (some (.error error, patience), t) := by
  simp only [send, await_ready (pollReady_of_empty he), append, h]

variable (ht : io.Tracks written)
include ht

/-- A flush ends, with everything written and nothing read. -/
theorem flush_of_serves {row : Bytes} (h : t.Brings io.Serves row) :
    ∃ t', Ends (await (pollFlush io)) t (Except.ok ()) t' ∧ t'.Serves io row ∧
      written t'.stream = t.sent written := by
  rcases h with ⟨left, rfl, waits, R, hR, hs⟩
  have hends : ∃ answer t', Ends (await (pollFlush io)) t answer t' ∧
      answer = Except.ok () ∧ t'.outbound = [] ∧ R t'.stream left := by
    refine ends_of_nearer (fun t => R t.stream left)
      (fun answer t' => answer = Except.ok () ∧ t'.outbound = [] ∧ R t'.stream left)
      (fun t => t.outbound.length) (fun t => waits t.stream) ?_ ?_ t hs
    · intro t₁ t₂ answer h hp
      rcases pollFlush_of_service hR h hp with ⟨h', ⟨ho, hempty⟩ | ⟨ho, _⟩⟩
      · exact ⟨Poll.ready.inj ho, hempty, h'⟩
      · cases ho
    · intro t₁ t₂ h hp
      rcases pollFlush_of_service hR h hp with ⟨h', ⟨ho, _⟩ | ⟨_, hnear⟩⟩
      · cases ho
      · exact ⟨h', hnear⟩
  rcases hends with ⟨_, t', hends, rfl, hempty, hs'⟩
  have hdrains : Drains written t t' :=
    hends.keeps (fun t₁ h => h.trans (drains_pollFlush ht t₁)) (.refl written t)
  have hsent := hdrains.sent
  rw [Transport.sent, hempty, List.append_nil] at hsent
  exact ⟨t', hends, ⟨⟨left, by rw [hdrains.inbound], waits, R, hR, hs'⟩, hempty⟩, hsent⟩

/-- Room is made in the end, where it has to be. -/
theorem ready_of_serves {row : Bytes} (h : t.Brings io.Serves row) :
    ∃ t', Ends (await (pollReady io)) t (Except.ok ()) t' ∧ t'.Brings io.Serves row ∧
      t'.sent written = t.sent written := by
  rcases h with ⟨left, rfl, waits, R, hR, hs⟩
  have hends : ∃ answer t', Ends (await (pollReady io)) t answer t' ∧
      answer = Except.ok () ∧ R t'.stream left := by
    refine ends_of_nearer (fun t => R t.stream left)
      (fun answer t' => answer = Except.ok () ∧ R t'.stream left)
      (fun t => t.outbound.length) (fun t => waits t.stream) ?_ ?_ t hs
    · intro t₁ t₂ answer h hp
      rcases pollReady_of_service hR h hp with ⟨h', ho | ⟨ho, _⟩⟩
      · exact ⟨Poll.ready.inj ho, h'⟩
      · cases ho
    · intro t₁ t₂ h hp
      rcases pollReady_of_service hR h hp with ⟨h', ho | ⟨_, hnear⟩⟩
      · cases ho
      · exact ⟨h', hnear⟩
  rcases hends with ⟨_, t', hends, rfl, hs'⟩
  have hdrains : Drains written t t' :=
    hends.keeps (fun t₁ h => h.trans (drains_pollReady ht t₁)) (.refl written t)
  exact ⟨t', hends, ⟨left, by rw [hdrains.inbound], waits, R, hR, hs'⟩, hdrains.sent⟩

/-- A payload that fits goes out behind what was left in the buffer. -/
theorem send_of_brings {max : Nat} {payload row : Bytes} (h : t.Brings io.Serves row)
    (hf : Fits max payload) :
    ∃ t', Ends (send io max payload) t (.ok ()) t' ∧ t'.Serves io row ∧
      written t'.stream = t.sent written ++ framed payload := by
  rcases ready_of_serves ht h with ⟨t₁, ⟨used₁, hready⟩, h₁, hsent⟩
  have hfilled : Brings io.Serves { t₁ with outbound := t₁.outbound ++ framed payload } row := h₁
  rcases flush_of_serves ht hfilled with ⟨t', ⟨used₂, hflush⟩, hs', hwritten⟩
  refine ⟨t', ⟨used₁ + used₂, fun extra => ?_⟩, hs', ?_⟩
  · simp only [send, Nat.add_assoc, hready (used₂ + extra), append,
      encodeWithin_eq_ok_iff.mpr ⟨hf, rfl⟩, hflush extra]
  · rw [hwritten, ← hsent, Transport.sent, Transport.sent, List.append_assoc]

/-- A payload that fits is written, and nothing else is. -/
theorem send_of_serves {max : Nat} {payload row : Bytes} (h : t.Serves io row)
    (hf : Fits max payload) :
    ∃ t', Ends (send io max payload) t (.ok ()) t' ∧ t'.Serves io row ∧
      written t'.stream = written t.stream ++ framed payload := by
  have hsent : t.sent written = written t.stream := by
    rw [Transport.sent, h.2, List.append_nil]
  exact hsent ▸ send_of_brings ht h.1 hf

/-- The next frame is the one at the front of all the bytes to come. -/
theorem next_of_serves (max : Nat) {row : Bytes} (h : t.Serves io row) :
    ∃ t', Ends (next io max) t (takeLast max row).1 t' ∧
      (∀ payload rest, take max row = .ok (some (payload, rest)) → t'.Serves io rest) ∧
      t'.outbound = [] ∧ written t'.stream = written t.stream := by
  rcases h with ⟨⟨left, hrow, waits, R, hR, hs⟩, hempty⟩
  have hends : ∃ answer t', Ends (next io max) t answer t' ∧ answer = (takeLast max row).1 ∧
      ∀ payload rest, take max row = .ok (some (payload, rest)) → t'.Brings R rest := by
    refine ends_of_nearer (fun t => t.Brings R row)
      (fun answer t' => answer = (takeLast max row).1 ∧
        ∀ payload rest, take max row = .ok (some (payload, rest)) → t'.Brings R rest)
      (fun t => row.length - t.inbound.length) (fun t => waits t.stream) ?_ ?_ t
      ⟨left, hrow, hs⟩
    · intro t₁ t₂ answer h hp
      rcases pollNext_of_service hR h hp with ⟨ho, hrest⟩ | ⟨ho, _⟩
      · exact ⟨Poll.ready.inj ho, hrest⟩
      · cases ho
    · intro t₁ t₂ h hp
      rcases pollNext_of_service hR h hp with ⟨ho, _⟩ | ⟨_, h', hmore⟩
      · cases ho
      · exact ⟨h', nearer_of_more h' hmore⟩
  rcases hends with ⟨_, t', hends, rfl, hrest⟩
  have hkeep : ∀ t₁ : Transport σ, t₁.outbound = [] ∧ written t₁.stream = written t.stream →
      (pollNext io max t₁).2.outbound = [] ∧
        written (pollNext io max t₁).2.stream = written t.stream := by
    intro t₁ h
    rcases pollNext_outbound ht max t₁ with ⟨hout, hwritten⟩
    exact ⟨hout.trans h.1, hwritten.trans h.2⟩
  have hsame := hends.keeps hkeep ⟨hempty, rfl⟩
  refine ⟨t', hends, fun payload rest hframe => ?_, hsame⟩
  rcases hrest payload rest hframe with ⟨ahead, hahead, hs'⟩
  exact ⟨⟨ahead, hahead, waits, R, hR, hs'⟩, hsame.1⟩

end FramedIpc.Transport
