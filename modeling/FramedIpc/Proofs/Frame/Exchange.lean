import FramedIpc.Frame.Exchange
import FramedIpc.Proofs.Frame.Pieces
import FramedIpc.Proofs.Stream.Delivery
import FramedIpc.Proofs.Stream.Tracked

/-!
# What Reading and Writing a Frame Moves

A frame is read by two whole reads and written by one whole write and a
flush, and any of them may fail. `Reading` and `Writing` list the ways this
can go, one constructor for each, and nothing after this module looks into
`read` and `write` again.

For the bytes that means: either a whole frame has moved, or the call failed
and what has moved is no frame, or, when writing, the payload was refused and
nothing was touched (`read_cases`, `write_cases`).

On a stream that delivers, reading a frame comes to the same as looking at
all the bytes it has left. This is where the reader on a stream and the
reader on a buffer, which share no code, turn out to be one.

## Main definitions

* `Reading`: The ways that reading a frame can go.
* `Writing`: The ways that writing a frame can go.
* `heard`: What a reader on a stream makes of the front of a buffer.

## Theorems

* `read_cases`: What reading a frame can have moved.
* `write_cases`: What writing a frame can have moved.
* `read_of_deliveryStep`: Reading a frame is looking at the bytes to come.
* `write_of_acceptanceStep`: A payload that fits is written.
* `write_admits`: Where nothing is refused by the stream, the payload decides.
* `read_of_serves`, `write_of_serves`: The same where reads and writes take
  turns.
-/

namespace FramedIpc.Frame

open FramedIpc.Stream

variable {σ : Type}

/-- The ways that reading a frame can go, with the outcome and the state after
    it. The header may not come, or come cut short, or promise too much; then
    the payload may not come, or come cut short, or be whole. -/
inductive Reading (io : Stream σ) (max : Nat) (s : σ) : Except Error Bytes → σ → Prop where
  | noHeader {fault : Fault} {s' : σ} :
      io.readWhole Header.size s = (.error fault, s') → Reading io max s (.error (.io fault)) s'
  | nothing {s' : σ} :
      io.readWhole Header.size s = (.ok [], s') → Reading io max s (.error .connectionClosed) s'
  | shortHeader {start : Bytes} {s' : σ} :
      io.readWhole Header.size s = (.ok start, s') → start ≠ [] → start.length < Header.size →
      Reading io max s (.error (.truncated Header.size start.length)) s'
  | oversize {header : Header} {s' : σ} :
      io.readWhole Header.size s = (.ok header.bytes, s') → max < header.length →
      Reading io max s (.error (.payloadTooLarge header.length max)) s'
  | noPayload {header : Header} {fault : Fault} {s₁ s' : σ} :
      io.readWhole Header.size s = (.ok header.bytes, s₁) → header.length ≤ max →
      io.readWhole header.length s₁ = (.error fault, s') →
      Reading io max s (.error (.io fault)) s'
  | shortPayload {header : Header} {part : Bytes} {s₁ s' : σ} :
      io.readWhole Header.size s = (.ok header.bytes, s₁) → header.length ≤ max →
      io.readWhole header.length s₁ = (.ok part, s') → part.length < header.length →
      Reading io max s (.error (.truncated header.length part.length)) s'
  | whole {header : Header} {payload : Bytes} {s₁ s' : σ} :
      io.readWhole Header.size s = (.ok header.bytes, s₁) → header.length ≤ max →
      io.readWhole header.length s₁ = (.ok payload, s') → payload.length = header.length →
      Reading io max s (.ok payload) s'

/-- The ways that writing a frame can go. A payload may be refused; its frame
    may be cut off by a failure or by a stream that takes no more; and the
    flush may fail when all of it has been taken. -/
inductive Writing (io : Stream σ) (max : Nat) (payload : Bytes) (s : σ) :
    Except Error Unit → σ → Prop where
  | refused {error : Error} :
      encodeWithin max payload = .error error → Writing io max payload s (.error error) s
  | cutOff {fault : Fault} {s' : σ} :
      Fits max payload → io.writeWhole (framed payload) s = (.error fault, s') →
      Writing io max payload s (.error (.io fault)) s'
  | stopped {s' : σ} :
      Fits max payload → io.writeWhole (framed payload) s = (.ok false, s') →
      Writing io max payload s (.error .connectionClosed) s'
  | unflushed {fault : Fault} {s₁ s' : σ} :
      Fits max payload → io.writeWhole (framed payload) s = (.ok true, s₁) →
      io.flushWhole s₁ = (.error fault, s') → Writing io max payload s (.error (.io fault)) s'
  | whole {s₁ s' : σ} :
      Fits max payload → io.writeWhole (framed payload) s = (.ok true, s₁) →
      io.flushWhole s₁ = (.ok (), s') → Writing io max payload s (.ok ()) s'

variable {io : Stream σ}

theorem reading_of_read {max : Nat} {s s' : σ} {outcome : Except Error Bytes}
    (h : read io max s = (outcome, s')) : Reading io max s outcome s' := by
  unfold read at h
  rcases hstart : io.readWhole Header.size s with ⟨fault | start, s₁⟩
  · rw [hstart] at h
    cases h
    exact .noHeader hstart
  rw [hstart] at h
  simp only [] at h
  rcases hs : Header.split? start with _ | ⟨header, rest⟩
  · -- No header: the stream has ended, before the frame or inside it.
    rw [hs] at h
    by_cases he : start.isEmpty
    · simp only [he, if_true] at h
      cases h
      rw [List.isEmpty_iff.mp he] at hstart
      exact .nothing hstart
    · simp only [he, if_false, Bool.false_eq_true] at h
      cases h
      exact .shortHeader hstart (mt List.isEmpty_iff.mpr he) (split?_eq_none_iff.mp hs)
  -- A header that was asked for alone comes alone.
  have hstart' : start = header.bytes := by
    have hle := length_le_of_readWhole hstart
    have hsplit := Header.eq_of_split? hs
    rw [hsplit, List.length_append, Header.length_bytes] at hle
    rw [hsplit, List.eq_nil_of_length_eq_zero (by omega : rest.length = 0), List.append_nil]
  rw [hs] at h
  rw [hstart'] at hstart
  simp only [] at h
  by_cases hmax : max < header.length
  · simp only [hmax, if_true] at h
    cases h
    exact .oversize hstart hmax
  have hfit := Nat.le_of_not_lt hmax
  simp only [hmax, if_false, readPayload] at h
  rcases hbody : io.readWhole header.length s₁ with ⟨fault | payload, s₂⟩
  · rw [hbody] at h
    cases h
    exact .noPayload hstart hfit hbody
  rw [hbody] at h
  simp only [] at h
  by_cases hlen : payload.length < header.length
  · simp only [hlen, if_true] at h
    cases h
    exact .shortPayload hstart hfit hbody hlen
  · simp only [hlen, if_false] at h
    cases h
    exact .whole hstart hfit hbody
      (Nat.le_antisymm (length_le_of_readWhole hbody) (Nat.le_of_not_lt hlen))

theorem writing_of_write {max : Nat} {payload : Bytes} {s s' : σ} {outcome : Except Error Unit}
    (h : write io max payload s = (outcome, s')) : Writing io max payload s outcome s' := by
  unfold write at h
  rcases he : encodeWithin max payload with error | frame
  · rw [he] at h
    cases h
    exact .refused he
  rcases encodeWithin_eq_ok_iff.mp he with ⟨hfit, rfl⟩
  rw [he] at h
  simp only [] at h
  rcases hwhole : io.writeWhole (framed payload) s with ⟨fault | _ | _, s₁⟩
  · rw [hwhole] at h
    cases h
    exact .cutOff hfit hwhole
  · rw [hwhole] at h
    cases h
    exact .stopped hfit hwhole
  rw [hwhole] at h
  simp only [] at h
  rcases hflush : io.flushWhole s₁ with ⟨fault | _, s₂⟩
  · rw [hflush] at h
    cases h
    exact .unflushed hfit hwhole hflush
  · rw [hflush] at h
    cases h
    exact .whole hfit hwhole hflush

/-- What reading a frame can have moved: a whole frame that was within the
    limit, or something that has no such frame at its front. Nothing is
    written. -/
theorem read_cases {written taken : σ → Bytes} (ht : io.Tracks written taken) {max : Nat}
    {s s' : σ} {outcome : Except Error Bytes} (h : read io max s = (outcome, s')) :
    written s' = written s ∧
      ((∃ payload, outcome = .ok payload ∧ Fits max payload ∧
          taken s' = taken s ++ framed payload) ∨
        ∃ error part, outcome = .error error ∧ taken s' = taken s ++ part ∧
          ∀ found, take max part ≠ .ok (some found)) := by
  cases reading_of_read h with
  | noHeader hstart =>
      rcases ht.readWhole_error hstart with ⟨hw, part, hlen, hp⟩
      exact ⟨hw, Or.inr ⟨_, part, rfl, hp, take_ne_of_short hlen⟩⟩
  | nothing hstart =>
      rcases ht.readWhole_ok hstart with ⟨hw, hp⟩
      exact ⟨hw, Or.inr ⟨_, [], rfl, hp, take_ne_of_short (by decide)⟩⟩
  | shortHeader hstart _ hlen =>
      rcases ht.readWhole_ok hstart with ⟨hw, hp⟩
      exact ⟨hw, Or.inr ⟨_, _, rfl, hp, take_ne_of_short hlen⟩⟩
  | oversize hstart hmax =>
      -- A header that promises too much is no frame, whatever follows it.
      rcases ht.readWhole_ok hstart with ⟨hw, hp⟩
      rw [← List.append_nil (Header.bytes _)] at hp
      refine ⟨hw, Or.inr ⟨_, _, rfl, hp, fun found => ?_⟩⟩
      rw [take_of_oversize hmax]
      simp only [ne_eq, reduceCtorEq, not_false_eq_true]
  | noPayload hstart hmax hbody =>
      rcases ht.readWhole_ok hstart with ⟨hw₁, hp₁⟩
      rcases ht.readWhole_error hbody with ⟨hw₂, part, hlen, hp₂⟩
      exact ⟨hw₂.trans hw₁, Or.inr ⟨_, _, rfl, by rw [hp₂, hp₁, List.append_assoc],
        take_ne_of_header hmax hlen⟩⟩
  | shortPayload hstart hmax hbody hlen =>
      rcases ht.readWhole_ok hstart with ⟨hw₁, hp₁⟩
      rcases ht.readWhole_ok hbody with ⟨hw₂, hp₂⟩
      exact ⟨hw₂.trans hw₁, Or.inr ⟨_, _, rfl, by rw [hp₂, hp₁, List.append_assoc],
        take_ne_of_header hmax hlen⟩⟩
  | @whole header payload s₁ s' hstart hmax hbody hlen =>
      rcases ht.readWhole_ok hstart with ⟨hw₁, hp₁⟩
      rcases ht.readWhole_ok hbody with ⟨hw₂, hp₂⟩
      refine ⟨hw₂.trans hw₁, Or.inl ⟨payload, rfl, ⟨by omega, ?_⟩, ?_⟩⟩
      · rw [hlen]
        exact header.length_lt
      · rw [hp₂, hp₁, List.append_assoc, framed_of_header hlen]

/-- What writing a frame can have moved: the whole frame; nothing, because the
    payload was refused; or a front of the frame before a call failed. Nothing
    is taken. -/
theorem write_cases {written taken : σ → Bytes} (ht : io.Tracks written taken) {max : Nat}
    {payload : Bytes} {s s' : σ} {outcome : Except Error Unit}
    (h : write io max payload s = (outcome, s')) :
    taken s' = taken s ∧
      ((outcome = .ok () ∧ Fits max payload ∧ written s' = written s ++ framed payload) ∨
        (∃ error, outcome = .error error ∧ error.isRefusal = true ∧ s' = s) ∨
        ∃ error front, outcome = .error error ∧ error.isRefusal = false ∧ Fits max payload ∧
          front <+: framed payload ∧ written s' = written s ++ front) := by
  cases writing_of_write h with
  | refused he => exact ⟨rfl, Or.inr (Or.inl ⟨_, rfl, isRefusal_of_encodeWithin he, rfl⟩)⟩
  | cutOff hfit hwhole =>
      rcases ht.writeWhole hwhole with ⟨hp, front, hfront, hw, _⟩
      exact ⟨hp, Or.inr (Or.inr ⟨_, front, rfl, rfl, hfit, hfront, hw⟩)⟩
  | stopped hfit hwhole =>
      rcases ht.writeWhole hwhole with ⟨hp, front, hfront, hw, _⟩
      exact ⟨hp, Or.inr (Or.inr ⟨_, front, rfl, rfl, hfit, hfront, hw⟩)⟩
  | unflushed hfit hwhole hflush =>
      -- A flush that fails comes too late to keep the frame back.
      rcases ht.writeWhole hwhole with ⟨hp₁, front, hfront, hw₁, _⟩
      rcases ht.flushWhole hflush with ⟨hw₂, hp₂⟩
      exact ⟨hp₂.trans hp₁, Or.inr (Or.inr ⟨_, front, rfl, rfl, hfit, hfront, hw₂.trans hw₁⟩)⟩
  | whole hfit hwhole hflush =>
      rcases ht.writeWhole hwhole with ⟨hp₁, front, hfront, hw₁, hall⟩
      rcases ht.flushWhole hflush with ⟨hw₂, hp₂⟩
      rw [hall rfl] at hw₁
      exact ⟨hp₂.trans hp₁, Or.inl ⟨rfl, hfit, hw₂.trans hw₁⟩⟩

theorem eq_of_write_refusal {max : Nat} {payload : Bytes} {s s' : σ} {error : Error}
    (h : write io max payload s = (.error error, s')) (hr : error.isRefusal = true) : s' = s := by
  cases writing_of_write h with
  | refused _ => rfl
  | cutOff _ _ => cases hr
  | stopped _ _ => cases hr
  | unflushed _ _ _ => cases hr

theorem encodeWithin_of_write_refusal {max : Nat} {payload : Bytes} {s s' : σ} {error : Error}
    (h : write io max payload s = (.error error, s')) (hr : error.isRefusal = true) :
    encodeWithin max payload = .error error := by
  cases writing_of_write h with
  | refused he => exact he
  | cutOff _ _ => cases hr
  | stopped _ _ => cases hr
  | unflushed _ _ _ => cases hr

theorem fits_of_write {max : Nat} {payload : Bytes} {s s' : σ}
    (h : write io max payload s = (.ok (), s')) : Fits max payload := by
  cases writing_of_write h with
  | whole hfit _ _ => exact hfit

section Keeps

variable {P : σ → Prop}

theorem keeps_read (hk : io.KeepsReading P) {max : Nat} {s s' : σ}
    {outcome : Except Error Bytes} (hs : P s) (h : read io max s = (outcome, s')) : P s' := by
  cases reading_of_read h with
  | noHeader hstart => exact hk.readWhole hs hstart
  | nothing hstart => exact hk.readWhole hs hstart
  | shortHeader hstart _ _ => exact hk.readWhole hs hstart
  | oversize hstart _ => exact hk.readWhole hs hstart
  | noPayload hstart _ hbody => exact hk.readWhole (hk.readWhole hs hstart) hbody
  | shortPayload hstart _ hbody _ => exact hk.readWhole (hk.readWhole hs hstart) hbody
  | whole hstart _ hbody _ => exact hk.readWhole (hk.readWhole hs hstart) hbody

theorem keeps_write (hk : io.KeepsWriting P) {max : Nat} {payload : Bytes} {s s' : σ}
    {outcome : Except Error Unit} (hs : P s) (h : write io max payload s = (outcome, s')) :
    P s' := by
  cases writing_of_write h with
  | refused _ => exact hs
  | cutOff _ hwhole => exact hk.writeWhole hs hwhole
  | stopped _ hwhole => exact hk.writeWhole hs hwhole
  | unflushed _ hwhole hflush => exact hk.flushWhole (hk.writeWhole hs hwhole) hflush
  | whole _ hwhole hflush => exact hk.flushWhole (hk.writeWhole hs hwhole) hflush

end Keeps

/-- What a reader on a stream makes of the front of a buffer. Where there is
    nothing the stream was closed. -/
def heard : Except Error (Option Bytes) → Except Error Bytes
  | .ok (some payload) => .ok payload
  | .ok none => .error .connectionClosed
  | .error error => .error error

/-- Reading a frame is looking at all the bytes to come: the outcome is the
    same, and so is what is left after a payload. -/
theorem read_of_deliveryStep {R : σ → Bytes → Prop} (hR : DeliveryStep io R) {max : Nat}
    {s s' : σ} {left : Bytes} {outcome : Except Error Bytes} (h : R s left)
    (hr : read io max s = (outcome, s')) :
    outcome = heard (takeLast max left).1 ∧
      ∀ payload rest, take max left = .ok (some (payload, rest)) → R s' rest := by
  cases reading_of_read hr with
  | noHeader hstart => cases (hR.readWhole h hstart).1
  | nothing hstart =>
      have hnil := Except.ok.inj (hR.readWhole h hstart).1
      rw [eq_comm, List.take_eq_nil_iff] at hnil
      rcases hnil with h0 | rfl
      · cases h0
      · exact ⟨rfl, fun p r ht => absurd ht (take_ne_of_short (by decide) _)⟩
  | @shortHeader start _ hstart hne hlen =>
      have hstart' := Except.ok.inj (hR.readWhole h hstart).1
      -- Fewer bytes than were asked for are all there are.
      have hall : left = start := by
        rw [hstart', List.length_take] at hlen
        rw [hstart', List.take_of_length_le (by omega)]
      rw [hall, takeLast_of_none (take_of_short hlen), if_neg (mt List.isEmpty_iff.mp hne)]
      simp only [truncation, split?_eq_none_iff.mpr hlen, heard, true_and]
      exact fun p r ht => absurd ht (take_ne_of_short hlen _)
  | @oversize header _ hstart hmax =>
      -- Both readers look at the header before they look for the payload.
      have hleft := List.take_append_drop Header.size left
      rw [← Except.ok.inj (hR.readWhole h hstart).1] at hleft
      rw [← hleft, takeLast_of_error (take_of_oversize hmax _), take_of_oversize hmax]
      simp only [heard, reduceCtorEq, false_implies, implies_true, and_self]
  | noPayload hstart _ hbody =>
      cases (hR.readWhole (hR.readWhole h hstart).2 hbody).1
  | @shortPayload header part _ _ hstart hmax hbody hlen =>
      have hleft := List.take_append_drop Header.size left
      rw [← Except.ok.inj (hR.readWhole h hstart).1] at hleft
      have hpart := Except.ok.inj (hR.readWhole (hR.readWhole h hstart).2 hbody).1
      have hall : left.drop Header.size = part := by
        rw [hpart, List.length_take] at hlen
        rw [hpart, List.take_of_length_le (by omega)]
      rw [hall] at hleft
      rw [← hleft, takeLast_of_none (take_of_header hmax hlen),
        if_neg (by simp only [Header.bytes, List.cons_append, List.isEmpty_cons,
          Bool.false_eq_true, not_false_eq_true])]
      simp only [truncation, Header.split?_bytes_append, heard, true_and]
      exact fun p r ht => absurd ht (take_ne_of_header hmax hlen _)
  | @whole header payload _ _ hstart hmax hbody hlen =>
      have hleft := List.take_append_drop Header.size left
      rw [← Except.ok.inj (hR.readWhole h hstart).1] at hleft
      rcases hR.readWhole (hR.readWhole h hstart).2 hbody with ⟨hpayload, hd⟩
      have hrest := List.take_append_drop header.length (left.drop Header.size)
      rw [← Except.ok.inj hpayload] at hrest
      rw [← hrest, ← List.append_assoc, ← framed_of_header hlen] at hleft
      have hfit : Fits max payload := ⟨by omega, by rw [hlen]; exact header.length_lt⟩
      have htake := take_framed_append hfit ((left.drop Header.size).drop header.length)
      rw [hleft] at htake
      refine ⟨by rw [takeLast_of_frame htake]; rfl, fun p r ht => ?_⟩
      rw [htake] at ht
      cases ht
      exact hd

theorem write_of_acceptanceStep {P : σ → Prop} (hP : AcceptanceStep io P) {max : Nat}
    {payload : Bytes} {s s' : σ} {outcome : Except Error Unit} (h : P s) (hf : Fits max payload)
    (hw : write io max payload s = (outcome, s')) : outcome = .ok () ∧ P s' := by
  cases writing_of_write hw with
  | refused he =>
      rw [encodeWithin_eq_ok_iff.mpr ⟨hf, rfl⟩] at he
      cases he
  | cutOff _ hwhole => cases (hP.writeWhole h hwhole).1
  | stopped _ hwhole => cases (hP.writeWhole h hwhole).1
  | unflushed _ hwhole hflush => cases (hP.flushWhole (hP.writeWhole h hwhole).2 hflush).1
  | whole _ hwhole hflush => exact ⟨rfl, (hP.flushWhole (hP.writeWhole h hwhole).2 hflush).2⟩

theorem read_of_delivers {max : Nat} {s s' : σ} {left : Bytes} {outcome : Except Error Bytes}
    (h : io.Delivers s left) (hr : read io max s = (outcome, s')) :
    outcome = heard (takeLast max left).1 ∧
      ∀ payload rest, take max left = .ok (some (payload, rest)) → io.Delivers s' rest := by
  rcases h with ⟨R, hR, hs⟩
  rcases read_of_deliveryStep hR hs hr with ⟨houtcome, hrest⟩
  exact ⟨houtcome, fun payload rest ht => ⟨R, hR, hrest payload rest ht⟩⟩

theorem write_of_accepts {max : Nat} {payload : Bytes} {s s' : σ} {outcome : Except Error Unit}
    (h : io.Accepts s) (hf : Fits max payload) (hw : write io max payload s = (outcome, s')) :
    outcome = .ok () ∧ io.Accepts s' := by
  rcases h with ⟨P, hP, hs⟩
  rcases write_of_acceptanceStep hP hs hf hw with ⟨houtcome, hs'⟩
  exact ⟨houtcome, P, hP, hs'⟩

theorem write_of_refused {max : Nat} {payload : Bytes} {error : Error}
    (h : admission max payload = .error error) (s : σ) :
    write io max payload s = (.error error, s) := by
  rw [write, encodeWithin_eq_admission, h]
  rfl

/-- Where nothing is refused by the stream, the payload decides. What is written
    is its frame, or nothing at all. -/
theorem write_admits {written taken : σ → Bytes} (ht : io.Tracks written taken) {s : σ}
    (h : io.Accepts s) (max : Nat) (payload : Bytes) :
    ∃ s', write io max payload s = (admission max payload, s') ∧ io.Accepts s' ∧
      written s' = written s ++ wire ([payload].filter (Fits max ·)) ∧
      ∀ error, admission max payload = .error error → s' = s := by
  by_cases hfits : Fits max payload
  · rcases hw : write io max payload s with ⟨outcome, s'⟩
    rcases write_of_accepts h hfits hw with ⟨rfl, h'⟩
    have hone : written s' = written s ++ framed payload := by
      rcases (write_cases ht hw).2 with ⟨_, _, hone⟩ | ⟨_, ho, _⟩ | ⟨_, _, ho, _⟩
      · exact hone
      · cases ho
      · cases ho
    rw [admission_eq_ok_iff.mpr hfits]
    exact ⟨s', rfl, h', by rw [hone, wire_filter_of_fits hfits], nofun⟩
  · rcases hrefused : admission max payload with error | _
    · refine ⟨s, write_of_refused hrefused s, h, ?_, fun _ _ => rfl⟩
      rw [wire_filter_of_not_fits hfits, List.append_nil]
    · exact absurd (admission_eq_ok_iff.mp hrefused) hfits

theorem read_of_serves {max : Nat} {s s' : σ} {left : Bytes} {outcome : Except Error Bytes}
    (h : io.Serves s left) (hr : read io max s = (outcome, s')) :
    outcome = heard (takeLast max left).1 ∧
      ∀ payload rest, take max left = .ok (some (payload, rest)) → io.Serves s' rest := by
  rcases h with ⟨R, hR, hP, hs⟩
  rcases read_of_deliveryStep hR hs hr with ⟨houtcome, hrest⟩
  exact ⟨houtcome, fun payload rest ht => ⟨R, hR, hP, hrest payload rest ht⟩⟩

theorem write_of_serves {max : Nat} {payload left : Bytes} {s s' : σ}
    {outcome : Except Error Unit} (h : io.Serves s left) (hf : Fits max payload)
    (hw : write io max payload s = (outcome, s')) : outcome = .ok () ∧ io.Serves s' left := by
  rcases h with ⟨R, hR, hP, hs⟩
  rcases write_of_acceptanceStep (hP left) hs hf hw with ⟨houtcome, hs'⟩
  exact ⟨houtcome, R, hR, hP, hs'⟩

/-- Where nothing is refused by the stream, a write fails on its payload only. -/
theorem isRefusal_of_serves {max : Nat} {payload left : Bytes} {s s' : σ} {error : Error}
    (h : io.Serves s left) (hw : write io max payload s = (.error error, s')) :
    error.isRefusal = true := by
  rcases hadmission : admission max payload with refusal | _
  · rw [write_of_refused hadmission] at hw
    cases hw
    rcases admission_eq_error_iff.mp hadmission with ⟨_, rfl⟩ | ⟨_, _, rfl⟩
    · rfl
    · rfl
  · cases (write_of_serves h (admission_eq_ok_iff.mp hadmission) hw).1

end FramedIpc.Frame
