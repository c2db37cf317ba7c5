import FramedIpc.Stream.Ledger
import FramedIpc.Stream.Script
import FramedIpc.Stream.Whole

/-!
# Streams That Deliver and Streams That Accept

How many bytes a call moves is up to the stream, and so is how often it is
interrupted. What a whole read or a whole write comes to must not depend on
either. Two properties of a state say that nothing but this is left open:
`Delivers`, that reads give certain bytes in whatever pieces and then end, and
`Accepts`, that no write or flush is refused. A user that both reads and
writes needs the two together, since a read may change what the next write
meets: `Serves` says that neither kind of call spoils the other.

All of these speak of all calls to come, so none can be had by recursion on
anything: a stream has no end to recurse to. They are greatest relations. A
state delivers some bytes if it stands in *some* relation to them that every
read keeps, and a stream is shown to deliver by giving such a relation.

## Main definitions

* `Stream.Delivers`: Reads give these bytes and then end.
* `Stream.Accepts`: Writes and flushes are not refused.
* `Stream.Serves`: Both, whatever the order of the calls.
* `Script.Inbound.IsPiece`: A piece of the bytes, or an interruption.
* `Script.TakesSome`: A write that takes something, or is interrupted.

## Theorems

* `DeliveryStep.readWhole`: A whole read gives as many bytes as there are.
* `AcceptanceStep.writeWhole`: A whole write is taken whole.
* `AcceptanceStep.flushWhole`: A whole flush is not refused.
* `Accepts.recorded`, `Serves.recorded`: Recording a stream changes nothing.
* `Script.delivers`: A script of pieces delivers them joined.
* `Script.accepts`: A script that takes some of each write accepts.
* `Script.serves`: A script that does both serves.
-/

namespace FramedIpc.Stream

variable {σ : Type}

/-- A relation between states and the bytes they have left to give that every
    read keeps. A read gives some of the bytes, or none because there are
    none, or is interrupted. -/
structure DeliveryStep (io : Stream σ) (R : σ → Bytes → Prop) : Prop where
  gives : ∀ {s s' left bs n}, R s left → 0 < n → io.read n s = (.ok bs, s') →
    ∃ rest, left = bs ++ rest ∧ R s' rest ∧ (bs = [] → left = [])
  waits : ∀ {s s' left fault n}, R s left → 0 < n → io.read n s = (.error fault, s') →
    fault.isInterrupted = true ∧ R s' left

/-- Reads give these bytes, in pieces of any size, and then end. -/
def Delivers (io : Stream σ) (s : σ) (left : Bytes) : Prop :=
  ∃ R : σ → Bytes → Prop, DeliveryStep io R ∧ R s left

/-- A property of states that every write and every flush keeps, none of them
    being refused: a write takes at least one byte or is interrupted. -/
structure AcceptanceStep (io : Stream σ) (P : σ → Prop) : Prop where
  takes : ∀ {s s' bs n}, P s → bs ≠ [] → io.write bs s = (.ok n, s') → 0 < n ∧ P s'
  waits : ∀ {s s' bs fault}, P s → bs ≠ [] → io.write bs s = (.error fault, s') →
    fault.isInterrupted = true ∧ P s'
  flushes : ∀ {s s'}, P s → io.flush s = (.ok (), s') → P s'
  flushWaits : ∀ {s s' fault}, P s → io.flush s = (.error fault, s') →
    fault.isInterrupted = true ∧ P s'

/-- Writes and flushes are not refused. -/
def Accepts (io : Stream σ) (s : σ) : Prop :=
  ∃ P : σ → Prop, AcceptanceStep io P ∧ P s

/-- Reads give these bytes and then end, and writes and flushes are not
    refused, in whatever order they come. -/
def Serves (io : Stream σ) (s : σ) (left : Bytes) : Prop :=
  ∃ R : σ → Bytes → Prop, DeliveryStep io R ∧ (∀ left, AcceptanceStep io (R · left)) ∧ R s left

variable {io : Stream σ}

/-- A whole read gives as many bytes as were asked for, or as there are. -/
theorem DeliveryStep.readWhole {R : σ → Bytes → Prop} (hR : DeliveryStep io R) {n : Nat}
    {s s' : σ} {left : Bytes} {outcome : Except Fault Bytes} (h : R s left)
    (hr : io.readWhole n s = (outcome, s')) :
    outcome = .ok (left.take n) ∧ R s' (left.drop n) := by
  fun_induction Stream.readWhole io n s generalizing left outcome with
  | case1 s =>
      cases hr
      rw [List.take_zero, List.drop_zero]
      exact ⟨rfl, h⟩
  | case2 n s hn s₁ hc =>
      -- A read that gives nothing says that there is nothing.
      cases hr
      rcases hR.gives h (Nat.pos_of_ne_zero hn) hc with ⟨rest, hleft, h₁, hend⟩
      rw [hend rfl] at hleft ⊢
      rw [List.nil_append] at hleft
      rw [← hleft] at h₁
      rw [List.take_nil, List.drop_nil]
      exact ⟨rfl, h₁⟩
  | case3 n s hn b bs s₁ hc more s₂ hmore ih =>
      cases hr
      rcases hR.gives h (Nat.pos_of_ne_zero hn) hc with ⟨rest, hleft, h₁, _⟩
      rcases ih h₁ hmore with ⟨hrest, h₂⟩
      have hle : (b :: bs).length ≤ n := io.length_le_of_read hc
      refine ⟨?_, ?_⟩
      · rw [hleft, List.take_append, List.take_of_length_le hle, Except.ok.inj hrest]
      · rw [hleft, List.drop_append, List.drop_of_length_le hle, List.nil_append]
        exact h₂
  | case4 n s hn b bs s₁ hc fault s₂ hmore ih =>
      cases hr
      rcases hR.gives h (Nat.pos_of_ne_zero hn) hc with ⟨rest, _, h₁, _⟩
      cases (ih h₁ hmore).1
  | case5 n s hn fault s₁ hc hi hlt ih =>
      exact ih (hR.waits h (Nat.pos_of_ne_zero hn) hc).2 hr
  | case6 n s hn fault s₁ hc hi =>
      exact absurd (hR.waits h (Nat.pos_of_ne_zero hn) hc).1 hi

/-- A whole write is taken whole. -/
theorem AcceptanceStep.writeWhole {P : σ → Prop} (hP : AcceptanceStep io P) {bs : Bytes}
    {s s' : σ} {outcome : Except Fault Bool} (h : P s)
    (hw : io.writeWhole bs s = (outcome, s')) : outcome = .ok true ∧ P s' := by
  fun_induction Stream.writeWhole io bs s with
  | case1 bs s _ =>
      cases hw
      exact ⟨rfl, h⟩
  | case2 bs s hbs s₁ hc =>
      -- A write that takes nothing would be a refusal.
      exact absurd (hP.takes h (mt List.isEmpty_iff.mpr hbs) hc).1 (Nat.lt_irrefl 0)
  | case3 bs s hbs n s₁ hc hle ih => exact ih (hP.takes h (mt List.isEmpty_iff.mpr hbs) hc).2 hw
  | case4 bs s hbs fault s₁ hc hi hlt ih =>
      exact ih (hP.waits h (mt List.isEmpty_iff.mpr hbs) hc).2 hw
  | case5 bs s hbs fault s₁ hc hi =>
      exact absurd (hP.waits h (mt List.isEmpty_iff.mpr hbs) hc).1 hi

/-- A whole flush is not refused. -/
theorem AcceptanceStep.flushWhole {P : σ → Prop} (hP : AcceptanceStep io P) {s s' : σ}
    {outcome : Except Fault Unit} (h : P s) (hf : io.flushWhole s = (outcome, s')) :
    outcome = .ok () ∧ P s' := by
  fun_induction Stream.flushWhole io s with
  | case1 s s₁ hc =>
      cases hf
      exact ⟨rfl, hP.flushes h hc⟩
  | case2 s fault s₁ hc hi hlt ih => exact ih (hP.flushWaits h hc).2 hf
  | case3 s fault s₁ hc hi => exact absurd (hP.flushWaits h hc).1 hi

section Recorded

variable {s s' : σ × Ledger}

theorem read_of_recorded {n : Nat} {outcome : Except Fault Bytes}
    (h : io.recorded.read n s = (outcome, s')) : io.read n s.1 = (outcome, s'.1) := by
  simp only [Stream.recorded, Prod.mk.injEq] at h
  rcases h with ⟨ho, rfl⟩
  exact Prod.ext ho rfl

theorem write_of_recorded {bs : Bytes} {outcome : Except Fault Nat}
    (h : io.recorded.write bs s = (outcome, s')) : io.write bs s.1 = (outcome, s'.1) := by
  simp only [Stream.recorded, Prod.mk.injEq] at h
  rcases h with ⟨ho, rfl⟩
  exact Prod.ext ho rfl

theorem flush_of_recorded {outcome : Except Fault Unit}
    (h : io.recorded.flush s = (outcome, s')) : io.flush s.1 = (outcome, s'.1) := by
  simp only [Stream.recorded, Prod.mk.injEq] at h
  rcases h with ⟨ho, rfl⟩
  exact Prod.ext ho rfl

end Recorded

theorem DeliveryStep.recorded {R : σ → Bytes → Prop} (hR : DeliveryStep io R) :
    DeliveryStep io.recorded (fun t => R t.1) where
  gives := fun ht hn hr => hR.gives ht hn (read_of_recorded hr)
  waits := fun ht hn hr => hR.waits ht hn (read_of_recorded hr)

theorem AcceptanceStep.recorded {P : σ → Prop} (hP : AcceptanceStep io P) :
    AcceptanceStep io.recorded (fun t => P t.1) where
  takes := fun ht hbs hw => hP.takes ht hbs (write_of_recorded hw)
  waits := fun ht hbs hw => hP.waits ht hbs (write_of_recorded hw)
  flushes := fun ht hf => hP.flushes ht (flush_of_recorded hf)
  flushWaits := fun ht hf => hP.flushWaits ht (flush_of_recorded hf)

/-- A ledger beside a stream refuses nothing. -/
theorem Accepts.recorded {s : σ} (h : io.Accepts s) (ledger : Ledger) :
    io.recorded.Accepts (s, ledger) := by
  rcases h with ⟨P, hP, hs⟩
  exact ⟨_, hP.recorded, hs⟩

/-- Nor does it change what is delivered. -/
theorem Serves.recorded {s : σ} {left : Bytes} (h : io.Serves s left) (ledger : Ledger) :
    io.recorded.Serves (s, ledger) left := by
  rcases h with ⟨R, hR, hP, hs⟩
  exact ⟨_, hR.recorded, fun left => (hP left).recorded, hs⟩

/-! ## Scripts -/

namespace Script

/-- The bytes that an entry gives. -/
def Inbound.bytes : Inbound → Bytes
  | .chunk bs => bs
  | _ => []

/-- Whether an entry is a piece of the bytes or an interruption. An empty
    piece would pass for the end. -/
def Inbound.IsPiece : Inbound → Prop
  | .chunk bs => bs ≠ []
  | .ended => False
  | .fault f => f.isInterrupted = true

instance : DecidablePred Inbound.IsPiece
  | .chunk bs => inferInstanceAs (Decidable (bs ≠ []))
  | .ended => inferInstanceAs (Decidable False)
  | .fault f => inferInstanceAs (Decidable (f.isInterrupted = true))

/-- The bytes that a script has left to give. -/
def bytes (script : Script) : Bytes :=
  script.left ++ script.reads.flatMap Inbound.bytes

/-- Whether an entry takes some of the bytes that are written, or
    interrupts. -/
def TakesSome : Except Fault Nat → Prop
  | .ok n => 0 < n
  | .error fault => fault.isInterrupted = true

instance : DecidablePred TakesSome
  | .ok n => inferInstanceAs (Decidable (0 < n))
  | .error fault => inferInstanceAs (Decidable (fault.isInterrupted = true))

theorem take_piece {piece : Bytes} {n : Nat} (hpiece : piece ≠ []) (hn : 0 < n) (rest : Bytes) :
    piece ++ rest = piece.take n ++ (piece.drop n ++ rest) ∧ piece.take n ≠ [] := by
  refine ⟨?_, ?_⟩
  · rw [← List.append_assoc, List.take_append_drop]
  · rw [ne_eq, List.take_eq_nil_iff]
    intro h
    rcases h with h | h
    · omega
    · exact hpiece h

/-- A read takes the front of what a script of pieces has left, or is
    interrupted, and leaves a script of pieces. -/
theorem read_of_pieces {script script' : Script} {n : Nat} {outcome : Except Fault Bytes}
    (h : ∀ entry ∈ script.reads, entry.IsPiece) (hn : 0 < n)
    (hr : read n script = (outcome, script')) :
    (∀ entry ∈ script'.reads, entry.IsPiece) ∧
      ((∃ bs, outcome = .ok bs ∧ script.bytes = bs ++ script'.bytes ∧
          (bs = [] → script.bytes = [])) ∨
        ∃ fault, outcome = .error fault ∧ fault.isInterrupted = true ∧
          script.bytes = script'.bytes) := by
  rcases script with ⟨part, reads, writes, flushes, shutdowns⟩
  unfold read takeChunk at hr
  by_cases hpart : part = []
  · simp only [hpart, List.isEmpty_nil, if_true] at hr
    rw [hpart]
    rcases reads with _ | ⟨entry, reads⟩
    · -- Behind the last piece there is only the end.
      cases hr
      exact ⟨h, Or.inl ⟨[], rfl, rfl, fun _ => rfl⟩⟩
    have hpiece := h entry List.mem_cons_self
    have hreads : ∀ e ∈ reads, e.IsPiece := fun e hm => h e (List.mem_cons_of_mem _ hm)
    cases entry with
    | chunk piece =>
        cases hr
        rcases take_piece hpiece hn (reads.flatMap Inbound.bytes) with ⟨hsplit, hsome⟩
        exact ⟨hreads, Or.inl ⟨_, rfl, hsplit, fun hnil => absurd hnil hsome⟩⟩
    | ended => exact hpiece.elim
    | fault fault =>
        cases hr
        exact ⟨hreads, Or.inr ⟨fault, rfl, hpiece, rfl⟩⟩
  · simp only [List.isEmpty_eq_false_iff.mpr hpart, Bool.false_eq_true, if_false] at hr
    cases hr
    rcases take_piece hpart hn (reads.flatMap Inbound.bytes) with ⟨hsplit, hsome⟩
    exact ⟨h, Or.inl ⟨_, rfl, hsplit, fun hnil => absurd hnil hsome⟩⟩

theorem deliveryStep : DeliveryStep stream
    (fun script left => (∀ entry ∈ script.reads, entry.IsPiece) ∧ left = script.bytes) := by
  constructor
  · rintro script script' left bs n ⟨h, rfl⟩ hn hr
    rcases read_of_pieces h hn hr with ⟨h', ⟨_, ho, hbytes, hend⟩ | ⟨_, ho, _⟩⟩
    · cases ho
      exact ⟨script'.bytes, hbytes, ⟨h', rfl⟩, hend⟩
    · cases ho
  · rintro script script' left fault n ⟨h, rfl⟩ hn hr
    rcases read_of_pieces h hn hr with ⟨h', ⟨_, ho, _⟩ | ⟨_, ho, hi, hbytes⟩⟩
    · cases ho
    · cases ho
      exact ⟨hi, h', hbytes⟩

/-- A script of pieces gives them joined, and then ends. -/
theorem delivers {script : Script} (h : ∀ entry ∈ script.reads, entry.IsPiece) :
    stream.Delivers script script.bytes :=
  ⟨_, deliveryStep, h, rfl⟩

theorem acceptanceStep : AcceptanceStep stream (fun script =>
    (∀ entry ∈ script.writes, TakesSome entry) ∧
      ∀ entry ∈ script.flushes, ∀ fault ∈ entry, fault.isInterrupted = true) := by
  constructor
  · rintro ⟨part, reads, writes, flushes, shutdowns⟩ s' bs n ⟨hs, hfs⟩ hbs hr
    change write bs _ = _ at hr
    unfold write at hr
    have hpos : 0 < bs.length := List.length_pos_iff.mpr hbs
    rcases writes with _ | ⟨fault' | k, writes⟩
    · cases hr
      exact ⟨hpos, hs, hfs⟩
    · cases hr
    · cases hr
      have hk : 0 < k := hs _ List.mem_cons_self
      exact ⟨by omega, fun e hm => hs e (List.mem_cons_of_mem _ hm), hfs⟩
  · rintro ⟨part, reads, writes, flushes, shutdowns⟩ s' bs fault ⟨hs, hfs⟩ hbs hr
    change write bs _ = _ at hr
    unfold write at hr
    rcases writes with _ | ⟨fault' | k, writes⟩
    · cases hr
    · cases hr
      exact ⟨hs _ List.mem_cons_self, fun e hm => hs e (List.mem_cons_of_mem _ hm), hfs⟩
    · cases hr
  · rintro ⟨part, reads, writes, flushes, shutdowns⟩ s' ⟨hs, hfs⟩ hr
    change flush _ = _ at hr
    unfold flush outcome at hr
    rcases flushes with _ | ⟨_ | fault, flushes⟩
    · cases hr
      exact ⟨hs, hfs⟩
    · cases hr
      exact ⟨hs, fun e hm => hfs e (List.mem_cons_of_mem _ hm)⟩
    · cases hr
  · rintro ⟨part, reads, writes, flushes, shutdowns⟩ s' fault ⟨hs, hfs⟩ hr
    change flush _ = _ at hr
    unfold flush outcome at hr
    rcases flushes with _ | ⟨_ | fault', flushes⟩
    · cases hr
    · cases hr
    · cases hr
      exact ⟨hfs _ List.mem_cons_self _ rfl, hs, fun e hm => hfs e (List.mem_cons_of_mem _ hm)⟩

/-- A script that takes some of each write, and interrupts flushes at most,
    refuses nothing. -/
theorem accepts {script : Script} (hw : ∀ entry ∈ script.writes, TakesSome entry)
    (hf : ∀ entry ∈ script.flushes, ∀ fault ∈ entry, fault.isInterrupted = true) :
    stream.Accepts script :=
  ⟨_, acceptanceStep, hw, hf⟩

theorem kept_of_read {script script' : Script} {n : Nat} {outcome : Except Fault Bytes}
    (hr : read n script = (outcome, script')) :
    script'.writes = script.writes ∧ script'.flushes = script.flushes := by
  unfold read takeChunk at hr
  split at hr
  · split at hr <;> cases hr <;> exact ⟨rfl, rfl⟩
  · cases hr
    exact ⟨rfl, rfl⟩

theorem kept_of_write {script script' : Script} {bs : Bytes} {outcome : Except Fault Nat}
    (hw : write bs script = (outcome, script')) :
    script'.left = script.left ∧ script'.reads = script.reads := by
  unfold write at hw
  split at hw <;> cases hw <;> exact ⟨rfl, rfl⟩

theorem kept_of_flush {script script' : Script} {result : Except Fault Unit}
    (hf : flush script = (result, script')) :
    script'.left = script.left ∧ script'.reads = script.reads := by
  unfold flush at hf
  split at hf <;> cases hf <;> exact ⟨rfl, rfl⟩

/-- A script of pieces that takes some of each write serves, since reads come
    from one part of it and writes and flushes from another. -/
theorem serves {script : Script} (hr : ∀ entry ∈ script.reads, entry.IsPiece)
    (hw : ∀ entry ∈ script.writes, TakesSome entry)
    (hf : ∀ entry ∈ script.flushes, ∀ fault ∈ entry, fault.isInterrupted = true) :
    stream.Serves script script.bytes := by
  refine ⟨fun s left => ((∀ entry ∈ s.reads, entry.IsPiece) ∧ left = s.bytes) ∧
    (∀ entry ∈ s.writes, TakesSome entry) ∧
      ∀ entry ∈ s.flushes, ∀ fault ∈ entry, fault.isInterrupted = true,
    ?_, fun left => ?_, ⟨hr, rfl⟩, hw, hf⟩
  · constructor
    · rintro s s' left bs n ⟨hs, hok⟩ hn hread
      rcases deliveryStep.gives hs hn hread with ⟨rest, hleft, hs', hend⟩
      rcases kept_of_read hread with ⟨hwrites, hflushes⟩
      exact ⟨rest, hleft, ⟨hs', by rw [hwrites, hflushes]; exact hok⟩, hend⟩
    · rintro s s' left fault n ⟨hs, hok⟩ hn hread
      rcases deliveryStep.waits hs hn hread with ⟨hi, hs'⟩
      rcases kept_of_read hread with ⟨hwrites, hflushes⟩
      exact ⟨hi, hs', by rw [hwrites, hflushes]; exact hok⟩
  · constructor
    · rintro s s' bs n ⟨hs, hok⟩ hbs hwrite
      rcases acceptanceStep.takes hok hbs hwrite with ⟨hn, hok'⟩
      rcases kept_of_write hwrite with ⟨hpart, hreads⟩
      exact ⟨hn, by rw [bytes, hpart, hreads]; exact hs, hok'⟩
    · rintro s s' bs fault ⟨hs, hok⟩ hbs hwrite
      rcases acceptanceStep.waits hok hbs hwrite with ⟨hi, hok'⟩
      rcases kept_of_write hwrite with ⟨hpart, hreads⟩
      exact ⟨hi, by rw [bytes, hpart, hreads]; exact hs, hok'⟩
    · rintro s s' ⟨hs, hok⟩ hflush
      rcases kept_of_flush hflush with ⟨hpart, hreads⟩
      exact ⟨by rw [bytes, hpart, hreads]; exact hs, acceptanceStep.flushes hok hflush⟩
    · rintro s s' fault ⟨hs, hok⟩ hflush
      rcases acceptanceStep.flushWaits hok hflush with ⟨hi, hok'⟩
      rcases kept_of_flush hflush with ⟨hpart, hreads⟩
      exact ⟨hi, by rw [bytes, hpart, hreads]; exact hs, hok'⟩

end Script

end FramedIpc.Stream
