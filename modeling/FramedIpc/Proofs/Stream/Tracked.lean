import FramedIpc.Stream.Ledger
import FramedIpc.Stream.Whole

/-!
# What Whole Calls Do to a Stream

A whole read or write is many calls, any of which may fail. Two questions are
asked of it. Which bytes have gone in and out when it is over? And does
something that every single call keeps still hold?

For the first a state needs to know its own history. `Tracks` says that two
views of it, the bytes written and the bytes taken, change with each call as
they should; the ledger of a recorded stream is such a pair, and so is any
other record of the same. A failed call may have moved a part of its bytes,
and the views say which part.

For the second, `Keeps` says that each of the four calls keeps a property,
and then so do the loops made of them. Some properties are kept in one
direction only, such as that nothing has been read, so the loops ask for no
more than the calls that they make (`KeepsReading`, `KeepsWriting`).

## Main definitions

* `Stream.Tracks`: Two views of a state that follow its calls.
* `Stream.Keeps`: A property of states that every call keeps.
* `Stream.KeepsReading`, `Stream.KeepsWriting`: A property that the calls in
  one direction keep.

## Theorems

* `recorded_tracks`: The ledger of a recorded stream follows its calls.
* `Tracks.readWhole_ok`: A whole read takes what it gives.
* `Tracks.readWhole_error`: A failed read has taken less than it was to.
* `Tracks.writeWhole`: A whole write has written a front of its bytes.
* `KeepsReading.readWhole`: A whole read keeps what every read keeps.
* `recorded_keepsReading`, `recorded_keepsWriting`: What the notes keep.
-/

namespace FramedIpc.Stream

variable {σ : Type}

/-- Two views of a state, the bytes written and the bytes taken so far, that
    follow the calls. A call that fails has moved nothing. -/
structure Tracks (io : Stream σ) (written taken : σ → Bytes) : Prop where
  read_ok : ∀ {n s bs s'}, io.read n s = (.ok bs, s') →
    written s' = written s ∧ taken s' = taken s ++ bs
  read_error : ∀ {n s fault s'}, io.read n s = (.error fault, s') →
    written s' = written s ∧ taken s' = taken s
  write_ok : ∀ {bs s n s'}, io.write bs s = (.ok n, s') →
    written s' = written s ++ bs.take n ∧ taken s' = taken s
  write_error : ∀ {bs s fault s'}, io.write bs s = (.error fault, s') →
    written s' = written s ∧ taken s' = taken s
  flush : ∀ {s outcome s'}, io.flush s = (outcome, s') →
    written s' = written s ∧ taken s' = taken s
  shutdown : ∀ {s outcome s'}, io.shutdown s = (outcome, s') →
    written s' = written s ∧ taken s' = taken s

/-- A property of states that every call keeps, however it ends. -/
structure Keeps (io : Stream σ) (P : σ → Prop) : Prop where
  read : ∀ {n s outcome s'}, P s → io.read n s = (outcome, s') → P s'
  write : ∀ {bs s outcome s'}, P s → io.write bs s = (outcome, s') → P s'
  flush : ∀ {s outcome s'}, P s → io.flush s = (outcome, s') → P s'
  shutdown : ∀ {s outcome s'}, P s → io.shutdown s = (outcome, s') → P s'

/-- A property of states that every read keeps, however it ends. -/
structure KeepsReading (io : Stream σ) (P : σ → Prop) : Prop where
  read : ∀ {n s outcome s'}, P s → io.read n s = (outcome, s') → P s'

/-- A property of states that every write and flush keeps, however it ends. -/
structure KeepsWriting (io : Stream σ) (P : σ → Prop) : Prop where
  write : ∀ {bs s outcome s'}, P s → io.write bs s = (outcome, s') → P s'
  flush : ∀ {s outcome s'}, P s → io.flush s = (outcome, s') → P s'

/-- The ledger of a recorded stream follows its calls. -/
theorem recorded_tracks (io : Stream σ) :
    io.recorded.Tracks (fun s => s.2.written) (fun s => s.2.taken) := by
  constructor
  · intro n s bs s' h
    simp only [recorded, Prod.mk.injEq] at h
    rcases h with ⟨hr, rfl⟩
    simp only [hr, Ledger.noteRead, and_self]
  · intro n s fault s' h
    simp only [recorded, Prod.mk.injEq] at h
    rcases h with ⟨hr, rfl⟩
    simp only [hr, Ledger.noteRead, and_self]
  · intro bs s n s' h
    simp only [recorded, Prod.mk.injEq] at h
    rcases h with ⟨hw, rfl⟩
    simp only [hw, Ledger.noteWrite, and_self]
  · intro bs s fault s' h
    simp only [recorded, Prod.mk.injEq] at h
    rcases h with ⟨hw, rfl⟩
    simp only [hw, Ledger.noteWrite, and_self]
  · intro s outcome s' h
    cases h
    exact ⟨rfl, rfl⟩
  · intro s outcome s' h
    cases h
    exact ⟨rfl, rfl⟩

variable {io : Stream σ}

theorem length_le_of_readWhole {n : Nat} {s s' : σ} {bs : Bytes}
    (h : io.readWhole n s = (.ok bs, s')) : bs.length ≤ n := by
  fun_induction Stream.readWhole io n s generalizing bs with
  | case1 s =>
      cases h
      exact Nat.le_refl 0
  | case2 n s hn s₁ hr =>
      cases h
      exact Nat.zero_le n
  | case3 n s hn b part s₁ hr rest s₂ hrest ih =>
      cases h
      have hpart := io.length_le_of_read hr
      have hrest := ih hrest
      rw [List.length_append]
      omega
  | case4 => cases h
  | case5 n s hn fault s₁ hr hi hlt ih => exact ih h
  | case6 => cases h

section Tracks

variable {written taken : σ → Bytes} (ht : io.Tracks written taken)
include ht

/-- A whole read has taken what it gives. -/
theorem Tracks.readWhole_ok {n : Nat} {s s' : σ} {bs : Bytes}
    (h : io.readWhole n s = (.ok bs, s')) :
    written s' = written s ∧ taken s' = taken s ++ bs := by
  fun_induction Stream.readWhole io n s generalizing bs with
  | case1 s =>
      cases h
      exact ⟨rfl, (List.append_nil _).symm⟩
  | case2 n s hn s₁ hr =>
      cases h
      exact ht.read_ok hr
  | case3 n s hn b part s₁ hr rest s₂ hrest ih =>
      cases h
      rcases ht.read_ok hr with ⟨hw₁, ht₁⟩
      rcases ih hrest with ⟨hw₂, ht₂⟩
      exact ⟨hw₂.trans hw₁, by rw [ht₂, ht₁, List.append_assoc]⟩
  | case4 => cases h
  | case5 n s hn fault s₁ hr hi hlt ih =>
      rcases ht.read_error hr with ⟨hw₁, ht₁⟩
      rcases ih h with ⟨hw₂, ht₂⟩
      exact ⟨hw₂.trans hw₁, by rw [ht₂, ht₁]⟩
  | case6 => cases h

/-- A whole read that failed has taken less than it was to. -/
theorem Tracks.readWhole_error {n : Nat} {s s' : σ} {fault : Fault}
    (h : io.readWhole n s = (.error fault, s')) :
    written s' = written s ∧ ∃ part, part.length < n ∧ taken s' = taken s ++ part := by
  fun_induction Stream.readWhole io n s with
  | case1 => cases h
  | case2 => cases h
  | case3 => cases h
  | case4 n s hn b bs s₁ hr fault' s₂ hrest ih =>
      -- What was read before the failure is lost to the caller, but it was taken.
      cases h
      rcases ht.read_ok hr with ⟨hw₁, ht₁⟩
      rcases ih hrest with ⟨hw₂, part, hlen, ht₂⟩
      have hle := io.length_le_of_read hr
      refine ⟨hw₂.trans hw₁, (b :: bs) ++ part, ?_, by rw [ht₂, ht₁, List.append_assoc]⟩
      rw [List.length_append]
      omega
  | case5 n s hn fault' s₁ hr hi hlt ih =>
      rcases ht.read_error hr with ⟨hw₁, ht₁⟩
      rcases ih h with ⟨hw₂, part, hlen, ht₂⟩
      exact ⟨hw₂.trans hw₁, part, hlen, by rw [ht₂, ht₁]⟩
  | case6 n s hn fault' s₁ hr hi =>
      cases h
      rcases ht.read_error hr with ⟨hw₁, ht₁⟩
      exact ⟨hw₁, [], Nat.pos_of_ne_zero hn, by rw [ht₁, List.append_nil]⟩

/-- A whole write has written a front of its bytes, and all of them if it
    says so. -/
theorem Tracks.writeWhole {bs : Bytes} {s s' : σ} {outcome : Except Fault Bool}
    (h : io.writeWhole bs s = (outcome, s')) :
    taken s' = taken s ∧ ∃ front, front <+: bs ∧ written s' = written s ++ front ∧
      (outcome = .ok true → front = bs) := by
  fun_induction Stream.writeWhole io bs s with
  | case1 bs s he =>
      cases h
      rw [List.isEmpty_iff.mp he]
      exact ⟨rfl, [], List.prefix_refl _, (List.append_nil _).symm, fun _ => rfl⟩
  | case2 bs s he s₁ hw =>
      cases h
      rcases ht.write_ok hw with ⟨hw₁, ht₁⟩
      exact ⟨ht₁, [], List.nil_prefix, hw₁, fun ho => by cases ho⟩
  | case3 bs s he n s₁ hw hle ih =>
      rcases ht.write_ok hw with ⟨hw₁, ht₁⟩
      rcases ih h with ⟨ht₂, front, hfront, hw₂, hall⟩
      refine ⟨ht₂.trans ht₁, bs.take (n + 1) ++ front, ?_, ?_, fun ho => ?_⟩
      · have := (List.prefix_append_right_inj (bs.take (n + 1))).mpr hfront
        rwa [List.take_append_drop] at this
      · rw [hw₂, hw₁, List.append_assoc]
      · rw [hall ho, List.take_append_drop]
  | case4 bs s he fault s₁ hw hi hlt ih =>
      rcases ht.write_error hw with ⟨hw₁, ht₁⟩
      rcases ih h with ⟨ht₂, front, hfront, hw₂, hall⟩
      exact ⟨ht₂.trans ht₁, front, hfront, by rw [hw₂, hw₁], hall⟩
  | case5 bs s he fault s₁ hw hi =>
      cases h
      rcases ht.write_error hw with ⟨hw₁, ht₁⟩
      exact ⟨ht₁, [], List.nil_prefix, by rw [hw₁, List.append_nil], fun ho => by cases ho⟩

/-- A whole flush moves nothing. -/
theorem Tracks.flushWhole {s s' : σ} {outcome : Except Fault Unit}
    (h : io.flushWhole s = (outcome, s')) : written s' = written s ∧ taken s' = taken s := by
  fun_induction Stream.flushWhole io s with
  | case1 s s₁ hf =>
      cases h
      exact ht.flush hf
  | case2 s fault s₁ hf hi hlt ih =>
      rcases ht.flush hf with ⟨hw₁, ht₁⟩
      rcases ih h with ⟨hw₂, ht₂⟩
      exact ⟨hw₂.trans hw₁, ht₂.trans ht₁⟩
  | case3 s fault s₁ hf hi =>
      cases h
      exact ht.flush hf

end Tracks

section Keeps

variable {P : σ → Prop}

theorem Keeps.reading (hk : io.Keeps P) : io.KeepsReading P := ⟨hk.read⟩

theorem Keeps.writing (hk : io.Keeps P) : io.KeepsWriting P := ⟨hk.write, hk.flush⟩

/-- What noting a read keeps in a ledger, reads keep. -/
theorem recorded_keepsReading (io : Stream σ) {Q : Ledger → Prop}
    (hnote : ∀ outcome ledger, Q ledger → Q (ledger.noteRead outcome)) :
    io.recorded.KeepsReading (fun s => Q s.2) := by
  constructor
  intro n s outcome s' hs h
  cases h
  exact hnote _ _ hs

/-- What noting writes and flushes keeps, they keep. -/
theorem recorded_keepsWriting (io : Stream σ) {Q : Ledger → Prop}
    (hwrite : ∀ bs outcome ledger, Q ledger → Q (ledger.noteWrite bs outcome))
    (hflush : ∀ ledger, Q ledger → Q ledger.noteFlush) :
    io.recorded.KeepsWriting (fun s => Q s.2) := by
  constructor
  · intro bs s outcome s' hs h
    cases h
    exact hwrite _ _ _ hs
  · intro s outcome s' hs h
    cases h
    exact hflush _ hs

/-- A whole read keeps what every read keeps. -/
theorem KeepsReading.readWhole (hk : io.KeepsReading P) {n : Nat} {s s' : σ}
    {outcome : Except Fault Bytes} (hs : P s) (h : io.readWhole n s = (outcome, s')) : P s' := by
  fun_induction Stream.readWhole io n s generalizing outcome with
  | case1 s =>
      cases h
      exact hs
  | case2 n s hn s₁ hr =>
      cases h
      exact hk.read hs hr
  | case3 n s hn b bs s₁ hr rest s₂ hrest ih =>
      cases h
      exact ih (hk.read hs hr) hrest
  | case4 n s hn b bs s₁ hr fault s₂ hrest ih =>
      cases h
      exact ih (hk.read hs hr) hrest
  | case5 n s hn fault s₁ hr hi hlt ih => exact ih (hk.read hs hr) h
  | case6 n s hn fault s₁ hr hi =>
      cases h
      exact hk.read hs hr

section Writing

variable (hk : io.KeepsWriting P)
include hk

/-- A whole write keeps what every write keeps. -/
theorem KeepsWriting.writeWhole {bs : Bytes} {s s' : σ} {outcome : Except Fault Bool} (hs : P s)
    (h : io.writeWhole bs s = (outcome, s')) : P s' := by
  fun_induction Stream.writeWhole io bs s with
  | case1 bs s he =>
      cases h
      exact hs
  | case2 bs s he s₁ hw =>
      cases h
      exact hk.write hs hw
  | case3 bs s he n s₁ hw hle ih => exact ih (hk.write hs hw) h
  | case4 bs s he fault s₁ hw hi hlt ih => exact ih (hk.write hs hw) h
  | case5 bs s he fault s₁ hw hi =>
      cases h
      exact hk.write hs hw

/-- A whole flush keeps what every flush keeps. -/
theorem KeepsWriting.flushWhole {s s' : σ} {outcome : Except Fault Unit} (hs : P s)
    (h : io.flushWhole s = (outcome, s')) : P s' := by
  fun_induction Stream.flushWhole io s with
  | case1 s s₁ hf =>
      cases h
      exact hk.flush hs hf
  | case2 s fault s₁ hf hi hlt ih => exact ih (hk.flush hs hf) h
  | case3 s fault s₁ hf hi =>
      cases h
      exact hk.flush hs hf

end Writing

end Keeps

end FramedIpc.Stream
