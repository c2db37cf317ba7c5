import FramedIpc.Stream.PolledScript
import FramedIpc.Proofs.Stream.Delivery

/-!
# Waiting for Polled Streams

A call on a polled stream may not be ready, and whoever waits for it may lose
patience. What an operation comes to if nobody does is a fact of its own:
`Ends` says that it ends with some answer once it has been given a certain
patience, and that any more would be left over. So operations that are waited
for one after another end if each of them does, and one number of waits
suffices for all.

An operation ends because every wait brings its end nearer: either bytes have
moved, or nothing has and the stream has one wait less to ask for. That is
shown once (`ends_of_nearer`), for a pair of counts.

What a polled stream does for its user is said as for any other, by a
relation that every call keeps. It holds more than `Delivers` and `Accepts` in
one respect, the waits, and less in another: no call is interrupted.

## Main definitions

* `Ends`: An operation ends with an answer if nobody loses patience.
* `Nearer`: Whether a wait has brought something nearer.
* `PolledStream.Tracks`: A view of a state that follows what is written.
* `PolledStream.Receives`: One that follows what is read.
* `PolledStream.Serves`: Reads give these bytes, and writes and flushes are
  not refused, once they are ready.
* `PolledScript.IsPiece`: A piece of the bytes, or a wait.

## Theorems

* `ends_of_nearer`: An operation ends if every wait brings its end nearer.
* `await_cases`: What waiting comes to, with patience or without.
* `await_keeps`: Waiting keeps what each call keeps.
* `recorded_tracks`, `recorded_receives`: The ledger of a recorded stream
  follows its writes and its reads.
* `PolledScript.serves`: A script of pieces and waits serves.
-/

namespace FramedIpc

section Await

variable {σ α : Type} {poll : σ → Poll α × σ}

/-- An operation ends with this answer in this state, once it has been waited
    for so often. Patience beyond that is left over. -/
def Ends (operation : Nat → σ → Waited α × σ) (s : σ) (answer : α) (s' : σ) : Prop :=
  ∃ used, ∀ extra, operation (used + extra) s = (some (answer, extra), s')

theorem Ends.of_immediate {operation : Nat → σ → Waited α × σ} {s s' : σ} {answer : α}
    (h : ∀ patience, operation patience s = (some (answer, patience), s')) :
    Ends operation s answer s' := by
  refine ⟨0, fun extra => ?_⟩
  rw [h, Nat.zero_add]

theorem await_ready {s s' : σ} {answer : α} (h : poll s = (.ready answer, s'))
    (patience : Nat) : await poll patience s = (some (answer, patience), s') := by
  rw [await, h]

theorem await_pending {s s' : σ} (h : poll s = (.pending, s')) (patience : Nat) :
    await poll (patience + 1) s = await poll patience s' := by
  rw [await, h]

theorem await_impatient {s s' : σ} (h : poll s = (.pending, s')) :
    await poll 0 s = (none, s') := by
  rw [await, h]

theorem Ends.of_ready {s s' : σ} {answer : α} (h : poll s = (.ready answer, s')) :
    Ends (await poll) s answer s' :=
  .of_immediate (await_ready h)

theorem Ends.of_pending {s s₁ s' : σ} {answer : α} (h : poll s = (.pending, s₁))
    (hends : Ends (await poll) s₁ answer s') : Ends (await poll) s answer s' := by
  rcases hends with ⟨used, hends⟩
  refine ⟨used + 1, fun extra => ?_⟩
  rw [Nat.add_right_comm, await_pending h]
  exact hends extra

/-- Whether a wait has brought something nearer: some of what was to be moved
    has moved, or none has and there are fewer waits to come. -/
def Nearer (unmoved waits : σ → Nat) (s' s : σ) : Prop :=
  unmoved s' < unmoved s ∨ unmoved s' = unmoved s ∧ waits s' < waits s

/-- An operation ends if every wait for it brings its end nearer. -/
theorem ends_of_nearer (Inv : σ → Prop) (Done : α → σ → Prop) (unmoved waits : σ → Nat)
    (ready : ∀ {s s' answer}, Inv s → poll s = (.ready answer, s') → Done answer s')
    (pending : ∀ {s s'}, Inv s → poll s = (.pending, s') → Inv s' ∧ Nearer unmoved waits s' s)
    (s : σ) (h : Inv s) : ∃ answer s', Ends (await poll) s answer s' ∧ Done answer s' := by
  rcases hp : poll s with ⟨answer | _, s₁⟩
  · exact ⟨answer, s₁, .of_ready hp, ready h hp⟩
  · have hless := (pending h hp).2
    rcases ends_of_nearer Inv Done unmoved waits ready pending s₁ (pending h hp).1 with
      ⟨answer, s', hends, hdone⟩
    exact ⟨answer, s', hends.of_pending hp, hdone⟩
termination_by (unmoved s, waits s)
decreasing_by
  rcases hless with hless | ⟨heq, hless⟩
  · exact Prod.Lex.left _ _ hless
  · rw [heq]
    exact Prod.Lex.right _ hless

/-- What waiting comes to, whether or not the patience lasts, if every wait
    keeps one thing and every answer brings about another. -/
theorem await_cases (Inv : σ → Prop) (Done : α → σ → Prop)
    (pending : ∀ {s s'}, Inv s → poll s = (.pending, s') → Inv s')
    (ready : ∀ {s s' answer}, Inv s → poll s = (.ready answer, s') → Done answer s')
    {patience : Nat} {s s' : σ} {waited : Waited α} (h : Inv s)
    (hw : await poll patience s = (waited, s')) :
    (waited = none ∧ Inv s') ∨ ∃ answer left, waited = some (answer, left) ∧ Done answer s' := by
  induction patience generalizing s with
  | zero =>
      rcases hp : poll s with ⟨answer | _, s₁⟩
      · rw [await_ready hp] at hw
        cases hw
        exact Or.inr ⟨answer, 0, rfl, ready h hp⟩
      · rw [await_impatient hp] at hw
        cases hw
        exact Or.inl ⟨rfl, pending h hp⟩
  | succ patience ih =>
      rcases hp : poll s with ⟨answer | _, s₁⟩
      · rw [await_ready hp] at hw
        cases hw
        exact Or.inr ⟨answer, patience + 1, rfl, ready h hp⟩
      · rw [await_pending hp] at hw
        exact ih (pending h hp) hw

/-- Waiting keeps what each call keeps, however long it is. -/
theorem await_keeps {P : σ → Prop} (hk : ∀ s, P s → P (poll s).2) (patience : Nat) {s : σ}
    (h : P s) : P (await poll patience s).2 := by
  have hkeep {s₁ s₂ : σ} {answer : Poll α} (hs : P s₁) (hp : poll s₁ = (answer, s₂)) : P s₂ := by
    have hs' := hk s₁ hs
    rwa [hp] at hs'
  -- What is kept whether the call waits or answers is kept either way.
  rcases hw : await poll patience s with ⟨waited, s'⟩
  rcases await_cases P (fun _ => P) hkeep hkeep h hw with ⟨_, hs'⟩ | ⟨_, _, _, hs'⟩
  · exact hs'
  · exact hs'

theorem Ends.keeps {P : σ → Prop} (hk : ∀ s, P s → P (poll s).2) {s s' : σ} {answer : α}
    (h : Ends (await poll) s answer s') (hs : P s) : P s' := by
  rcases h with ⟨used, h⟩
  have hkeeps := await_keeps hk (used + 0) hs
  rw [h 0] at hkeeps
  exact hkeeps

end Await

namespace PolledStream

variable {σ : Type}

/-- A view of a state, the bytes written so far, that follows the calls. Only
    a write that is ready and not refused has moved anything. -/
structure Tracks (io : PolledStream σ) (written : σ → Bytes) : Prop where
  read : ∀ {n s answer s'}, io.read n s = (answer, s') → written s' = written s
  write_ok : ∀ {bs s n s'}, io.write bs s = (.ready (.ok n), s') →
    written s' = written s ++ bs.take n
  write_error : ∀ {bs s fault s'}, io.write bs s = (.ready (.error fault), s') →
    written s' = written s
  write_pending : ∀ {bs s s'}, io.write bs s = (.pending, s') → written s' = written s
  flush : ∀ {s answer s'}, io.flush s = (answer, s') → written s' = written s
  shutdown : ∀ {s answer s'}, io.shutdown s = (answer, s') → written s' = written s

/-- A view of a state, the bytes read so far, that follows the calls. Nothing
    is said of a read that is refused: nobody reads on after it. -/
structure Receives (io : PolledStream σ) (taken : σ → Bytes) : Prop where
  read_ok : ∀ {n s bs s'}, io.read n s = (.ready (.ok bs), s') → taken s' = taken s ++ bs
  read_pending : ∀ {n s s'}, io.read n s = (.pending, s') → taken s' = taken s
  write : ∀ {bs s answer s'}, io.write bs s = (answer, s') → taken s' = taken s
  flush : ∀ {s answer s'}, io.flush s = (answer, s') → taken s' = taken s

/-- A relation between states and the bytes they have left to give that every
    call keeps. A call that is ready is not refused: a read gives some of the
    bytes, or none because there are none, and a write takes at least one. A
    call that is not ready leaves fewer waits. -/
structure ServiceStep (io : PolledStream σ) (waits : σ → Nat) (R : σ → Bytes → Prop) :
    Prop where
  gives : ∀ {s s' left outcome n}, R s left → 0 < n → io.read n s = (.ready outcome, s') →
    ∃ bs rest, outcome = .ok bs ∧ left = bs ++ rest ∧ R s' rest ∧ (bs = [] → left = [])
  takes : ∀ {s s' left outcome bs}, R s left → bs ≠ [] →
    io.write bs s = (.ready outcome, s') → ∃ n, outcome = .ok n ∧ 0 < n ∧ R s' left
  flushes : ∀ {s s' left outcome}, R s left → io.flush s = (.ready outcome, s') →
    outcome = .ok () ∧ R s' left
  readWaits : ∀ {s s' left n}, R s left → 0 < n → io.read n s = (.pending, s') →
    R s' left ∧ waits s' < waits s
  writeWaits : ∀ {s s' left bs}, R s left → bs ≠ [] → io.write bs s = (.pending, s') →
    R s' left ∧ waits s' < waits s
  flushWaits : ∀ {s s' left}, R s left → io.flush s = (.pending, s') →
    R s' left ∧ waits s' < waits s

/-- Reads give these bytes and then end, and writes and flushes are not
    refused, in whatever order they come. None is kept waiting for ever. -/
def Serves (io : PolledStream σ) (s : σ) (left : Bytes) : Prop :=
  ∃ waits R, ServiceStep io waits R ∧ R s left

/-- The ledger of a recorded stream follows its writes. -/
theorem recorded_tracks (io : PolledStream σ) : io.recorded.Tracks (fun s => s.2.written) := by
  constructor
  · intro n s answer s' h
    simp only [recorded, Prod.mk.injEq] at h
    rcases h with ⟨_, rfl⟩
    rcases (io.read n s.1).1 with (fault | bs) | _
    · rfl
    · rfl
    · rfl
  · intro bs s n s' h
    simp only [recorded, Prod.mk.injEq] at h
    rcases h with ⟨hw, rfl⟩
    simp only [hw, Ledger.noteWrite]
  · intro bs s fault s' h
    simp only [recorded, Prod.mk.injEq] at h
    rcases h with ⟨hw, rfl⟩
    simp only [hw, Ledger.noteWrite]
  · intro bs s s' h
    simp only [recorded, Prod.mk.injEq] at h
    rcases h with ⟨hw, rfl⟩
    simp only [hw]
  · intro s answer s' h
    simp only [recorded, Prod.mk.injEq] at h
    rcases h with ⟨_, rfl⟩
    rcases (io.flush s.1).1 with outcome | _
    · rfl
    · rfl
  · intro s answer s' h
    simp only [recorded, Prod.mk.injEq] at h
    rcases h with ⟨_, rfl⟩
    rcases (io.shutdown s.1).1 with outcome | _
    · rfl
    · rfl

/-- And its reads. -/
theorem recorded_receives (io : PolledStream σ) : io.recorded.Receives (fun s => s.2.taken) := by
  constructor
  · intro n s bs s' h
    simp only [recorded, Prod.mk.injEq] at h
    rcases h with ⟨hr, rfl⟩
    simp only [hr, Ledger.noteRead]
  · intro n s s' h
    simp only [recorded, Prod.mk.injEq] at h
    rcases h with ⟨hr, rfl⟩
    simp only [hr]
  · intro bs s answer s' h
    simp only [recorded, Prod.mk.injEq] at h
    rcases h with ⟨_, rfl⟩
    rcases (io.write bs s.1).1 with (fault | n) | _
    · rfl
    · rfl
    · rfl
  · intro s answer s' h
    simp only [recorded, Prod.mk.injEq] at h
    rcases h with ⟨_, rfl⟩
    rcases (io.flush s.1).1 with outcome | _
    · rfl
    · rfl

section Recorded

variable {io : PolledStream σ} {s s' : σ × Ledger}

theorem read_of_recorded {n : Nat} {answer : Poll (Except Fault Bytes)}
    (h : io.recorded.read n s = (answer, s')) : io.read n s.1 = (answer, s'.1) := by
  simp only [recorded, Prod.mk.injEq] at h
  rcases h with ⟨ha, rfl⟩
  exact Prod.ext ha rfl

theorem write_of_recorded {bs : Bytes} {answer : Poll (Except Fault Nat)}
    (h : io.recorded.write bs s = (answer, s')) : io.write bs s.1 = (answer, s'.1) := by
  simp only [recorded, Prod.mk.injEq] at h
  rcases h with ⟨ha, rfl⟩
  exact Prod.ext ha rfl

theorem flush_of_recorded {answer : Poll (Except Fault Unit)}
    (h : io.recorded.flush s = (answer, s')) : io.flush s.1 = (answer, s'.1) := by
  simp only [recorded, Prod.mk.injEq] at h
  rcases h with ⟨ha, rfl⟩
  exact Prod.ext ha rfl

end Recorded

/-- A ledger beside a polled stream changes nothing for its user. -/
theorem Serves.recorded {io : PolledStream σ} {s : σ} {left : Bytes} (h : io.Serves s left)
    (ledger : Ledger) : io.recorded.Serves (s, ledger) left := by
  rcases h with ⟨waits, R, hR, hs⟩
  refine ⟨fun t => waits t.1, fun t => R t.1, ?_, hs⟩
  constructor
  · intro t t' left outcome n ht hn hr
    exact hR.gives ht hn (read_of_recorded hr)
  · intro t t' left outcome bs ht hbs hw
    exact hR.takes ht hbs (write_of_recorded hw)
  · intro t t' left outcome ht hf
    exact hR.flushes ht (flush_of_recorded hf)
  · intro t t' left n ht hn hr
    exact hR.readWaits ht hn (read_of_recorded hr)
  · intro t t' left bs ht hbs hw
    exact hR.writeWaits ht hbs (write_of_recorded hw)
  · intro t t' left ht hf
    exact hR.flushWaits ht (flush_of_recorded hf)

/-! ## Scripts -/

namespace PolledScript

open FramedIpc.Stream

/-- The bytes that an entry gives. -/
def given : Poll Script.Inbound → Bytes
  | .ready (.chunk bs) => bs
  | _ => []

/-- Whether an entry is a piece of the bytes or a wait. -/
def IsPiece : Poll Script.Inbound → Prop
  | .ready (.chunk bs) => bs ≠ []
  | .ready _ => False
  | .pending => True

instance : DecidablePred IsPiece
  | .ready (.chunk bs) => inferInstanceAs (Decidable (bs ≠ []))
  | .ready .ended => inferInstanceAs (Decidable False)
  | .ready (.fault _) => inferInstanceAs (Decidable False)
  | .pending => inferInstanceAs (Decidable True)

/-- Whether an entry takes some of the bytes that are written, or is a wait. -/
def TakesSome : Poll (Except Fault Nat) → Prop
  | .ready (.ok n) => 0 < n
  | .ready (.error _) => False
  | .pending => True

instance : DecidablePred TakesSome
  | .ready (.ok n) => inferInstanceAs (Decidable (0 < n))
  | .ready (.error _) => inferInstanceAs (Decidable False)
  | .pending => inferInstanceAs (Decidable True)

/-- The bytes that a script has left to give. -/
def bytes (script : PolledScript) : Bytes :=
  script.left ++ script.reads.flatMap given

/-- A read takes the front of what a script of pieces has left, or waits. -/
theorem read_of_pieces {script script' : PolledScript} {n : Nat}
    {answer : Poll (Except Fault Bytes)} (h : ∀ entry ∈ script.reads, IsPiece entry)
    (hn : 0 < n) (hr : read n script = (answer, script')) :
    (∀ entry ∈ script'.reads, IsPiece entry) ∧ script'.writes = script.writes ∧
      script'.flushes = script.flushes ∧
      ((∃ bs, answer = .ready (.ok bs) ∧ script.bytes = bs ++ script'.bytes ∧
          (bs = [] → script.bytes = [])) ∨
        (answer = .pending ∧ script'.bytes = script.bytes ∧ script'.waits < script.waits)) := by
  rcases script with ⟨part, reads, writes, flushes, shutdowns⟩
  unfold read at hr
  by_cases hpart : part = []
  · simp only [hpart, List.isEmpty_nil, if_true] at hr
    rw [hpart]
    rcases reads with _ | ⟨entry, reads⟩
    · cases hr
      exact ⟨h, rfl, rfl, Or.inl ⟨[], rfl, rfl, fun _ => rfl⟩⟩
    have hpiece := h entry List.mem_cons_self
    have hreads : ∀ e ∈ reads, IsPiece e := fun e hm => h e (List.mem_cons_of_mem _ hm)
    -- A piece is given in part or whole; a wait is used up; nothing else is there.
    rcases entry with (piece | _ | _) | _
    · cases hr
      rcases Script.take_piece hpiece hn (reads.flatMap given) with ⟨hsplit, hsome⟩
      exact ⟨hreads, rfl, rfl, Or.inl ⟨_, rfl, hsplit, fun hnil => absurd hnil hsome⟩⟩
    · exact hpiece.elim
    · exact hpiece.elim
    · cases hr
      refine ⟨hreads, rfl, rfl, Or.inr ⟨rfl, rfl, ?_⟩⟩
      simp only [waits, List.length_cons]
      omega
  · simp only [List.isEmpty_eq_false_iff.mpr hpart, Bool.false_eq_true, if_false] at hr
    cases hr
    rcases Script.take_piece hpart hn (reads.flatMap given) with ⟨hsplit, hsome⟩
    exact ⟨h, rfl, rfl, Or.inl ⟨_, rfl, hsplit, fun hnil => absurd hnil hsome⟩⟩

/-- A write is taken in part at least, or waits. -/
theorem write_of_takesSome {script script' : PolledScript} {bs : Bytes}
    {answer : Poll (Except Fault Nat)} (h : ∀ entry ∈ script.writes, TakesSome entry)
    (hbs : bs ≠ []) (hw : write bs script = (answer, script')) :
    (∀ entry ∈ script'.writes, TakesSome entry) ∧ script'.reads = script.reads ∧
      script'.left = script.left ∧ script'.flushes = script.flushes ∧
      ((∃ n, answer = .ready (.ok n) ∧ 0 < n) ∨
        (answer = .pending ∧ script'.waits < script.waits)) := by
  rcases script with ⟨part, reads, writes, flushes, shutdowns⟩
  have hpos : 0 < bs.length := List.length_pos_iff.mpr hbs
  unfold write at hw
  rcases writes with _ | ⟨entry, writes⟩
  · cases hw
    exact ⟨h, rfl, rfl, rfl, Or.inl ⟨_, rfl, hpos⟩⟩
  have hentry := h entry List.mem_cons_self
  have hwrites : ∀ e ∈ writes, TakesSome e := fun e hm => h e (List.mem_cons_of_mem _ hm)
  rcases entry with (_ | n) | _
  · exact hentry.elim
  · cases hw
    have hn : 0 < n := hentry
    exact ⟨hwrites, rfl, rfl, rfl, Or.inl ⟨_, rfl, by omega⟩⟩
  · cases hw
    refine ⟨hwrites, rfl, rfl, rfl, Or.inr ⟨rfl, ?_⟩⟩
    simp only [waits, List.length_cons]
    omega

/-- A flush is ready at once, and not refused where no entry says so. -/
theorem flush_of_unfaulted {script script' : PolledScript} {answer : Poll (Except Fault Unit)}
    (h : ∀ entry ∈ script.flushes, entry = none) (hf : flush script = (answer, script')) :
    answer = .ready (.ok ()) ∧ (∀ entry ∈ script'.flushes, entry = none) ∧
      script'.reads = script.reads ∧ script'.left = script.left ∧
      script'.writes = script.writes := by
  rcases script with ⟨part, reads, writes, flushes, shutdowns⟩
  unfold flush at hf
  rcases flushes with _ | ⟨entry, flushes⟩
  · cases hf
    exact ⟨rfl, h, rfl, rfl, rfl⟩
  · cases hf
    rw [h entry List.mem_cons_self]
    exact ⟨rfl, fun e hm => h e (List.mem_cons_of_mem _ hm), rfl, rfl, rfl⟩

/-- A script of pieces and waits that takes some of each write serves. -/
theorem serves {script : PolledScript} (hr : ∀ entry ∈ script.reads, IsPiece entry)
    (hw : ∀ entry ∈ script.writes, TakesSome entry)
    (hf : ∀ entry ∈ script.flushes, entry = none) : stream.Serves script script.bytes := by
  refine ⟨waits, fun s left => (∀ entry ∈ s.reads, IsPiece entry) ∧
    (∀ entry ∈ s.writes, TakesSome entry) ∧ (∀ entry ∈ s.flushes, entry = none) ∧
      left = s.bytes, ?_, hr, hw, hf, rfl⟩
  constructor
  · rintro s s' left outcome n ⟨hs, hws, hfs, rfl⟩ hn hread
    rcases read_of_pieces hs hn hread with
      ⟨hs', hwrites, hflushes, ⟨bs, ho, hbytes, hend⟩ | ⟨ho, _⟩⟩
    · cases ho
      exact ⟨bs, s'.bytes, rfl, hbytes, ⟨hs', by rw [hwrites]; exact hws,
        by rw [hflushes]; exact hfs, rfl⟩, hend⟩
    · cases ho
  · rintro s s' left outcome bs ⟨hs, hws, hfs, rfl⟩ hbs hwrite
    rcases write_of_takesSome hws hbs hwrite with
      ⟨hws', hreads, hleft, hflushes, ⟨n, ho, hn⟩ | ⟨ho, _⟩⟩
    · cases ho
      exact ⟨n, rfl, hn, by rw [hreads]; exact hs, hws', by rw [hflushes]; exact hfs,
        by rw [bytes, bytes, hreads, hleft]⟩
    · cases ho
  · rintro s s' left outcome ⟨hs, hws, hfs, rfl⟩ hflush
    rcases flush_of_unfaulted hfs hflush with ⟨ho, hfs', hreads, hleft, hwrites⟩
    cases ho
    exact ⟨rfl, by rw [hreads]; exact hs, by rw [hwrites]; exact hws, hfs',
      by rw [bytes, bytes, hreads, hleft]⟩
  · rintro s s' left n ⟨hs, hws, hfs, rfl⟩ hn hread
    rcases read_of_pieces hs hn hread with
      ⟨hs', hwrites, hflushes, ⟨bs, ho, _⟩ | ⟨_, hbytes, hlt⟩⟩
    · cases ho
    · exact ⟨⟨hs', by rw [hwrites]; exact hws, by rw [hflushes]; exact hfs, hbytes.symm⟩, hlt⟩
  · rintro s s' left bs ⟨hs, hws, hfs, rfl⟩ hbs hwrite
    rcases write_of_takesSome hws hbs hwrite with
      ⟨hws', hreads, hleft, hflushes, ⟨n, ho, _⟩ | ⟨_, hlt⟩⟩
    · cases ho
    · exact ⟨⟨by rw [hreads]; exact hs, hws', by rw [hflushes]; exact hfs,
        by rw [bytes, bytes, hreads, hleft]⟩, hlt⟩
  · rintro s s' left ⟨_, _, hfs, _⟩ hflush
    cases (flush_of_unfaulted hfs hflush).1

end PolledScript

end PolledStream

end FramedIpc
