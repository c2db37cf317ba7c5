import FramedIpc.Proofs.Frame.Agreement

/-!
# A Wire That Is Cut

Payloads are written one after another, and somewhere on the way the bytes
stop. Whoever reads what has come through gets the payloads whose frames came
whole, in order, and then one error. From the error it can be told where the
cut was: between two frames the stream just ends, and inside a frame either
the header or the payload is cut short, by so much.

The pieces in which the stream takes the bytes, and those in which the other
one gives them, have no part in it, nor has any call that was interrupted.

## Main definitions

* `writeMany`: The outcomes of some writes in a row.
* `CutAt`: Where the wire of some payloads is cut.

## Theorems

* `writeMany_admits`: What is written is the wire of the payloads that fit.
* `writeMany_of_accepts`: Payloads that all fit are written as their wire.
* `exists_cutAt`: Every cut is between two frames or inside one.
* `readMany_of_cut`: What is read over a wire that is cut.
-/

namespace FramedIpc.Frame

open FramedIpc.Stream

variable {σ τ : Type}

/-- The outcomes of writing some payloads in a row, and the state after
    them. -/
def writeMany (io : Stream σ) (max : Nat) : List Bytes → σ → List (Except Error Unit) × σ
  | [], s => ([], s)
  | payload :: rest, s =>
    ((write io max payload s).1 :: (writeMany io max rest (write io max payload s).2).1,
      (writeMany io max rest (write io max payload s).2).2)

/-- Where the wire of some payloads is cut when so many bytes of it are kept,
    with the payloads that stay whole and what is told of the end. -/
inductive CutAt (payloads : List Bytes) : Nat → List Bytes → Error → Prop where
  | between {whole rest : List Bytes} :
      payloads = whole ++ rest →
      CutAt payloads (wire whole).length whole .connectionClosed
  | inside {whole rest : List Bytes} {payload : Bytes} {part : Nat} :
      payloads = whole ++ payload :: rest → 0 < part → part < Header.size + payload.length →
      CutAt payloads ((wire whole).length + part) whole (shortage payload part)

/-- Where nothing is refused by the stream, the payloads decide, each for itself,
    and what is written is the wire of those that fit. -/
theorem writeMany_admits {io : Stream σ} {written taken : σ → Bytes}
    (ht : io.Tracks written taken) (max : Nat) (payloads : List Bytes) {s : σ}
    (h : io.Accepts s) :
    (writeMany io max payloads s).1 = payloads.map (admission max) ∧
      written (writeMany io max payloads s).2 =
        written s ++ wire (payloads.filter (Fits max ·)) := by
  induction payloads generalizing s with
  | nil => exact ⟨rfl, (List.append_nil _).symm⟩
  | cons payload rest ih =>
      rcases write_admits ht h max payload with ⟨s', hw, h', hone, _⟩
      rcases ih h' with ⟨hrest, hwire⟩
      simp only [writeMany, hw, hrest, List.map_cons, true_and]
      rw [hwire, hone, List.append_assoc, ← wire_append, ← List.filter_append,
        List.singleton_append]

/-- Payloads that fit are written, and what is written is their wire. -/
theorem writeMany_of_accepts {io : Stream σ} {written taken : σ → Bytes}
    (ht : io.Tracks written taken) {max : Nat} {payloads : List Bytes} {s : σ}
    (h : io.Accepts s) (hfit : ∀ payload ∈ payloads, Fits max payload) :
    (writeMany io max payloads s).1 = payloads.map (fun _ => .ok ()) ∧
      written (writeMany io max payloads s).2 = written s ++ wire payloads := by
  rcases writeMany_admits ht max payloads h with ⟨houtcomes, hwire⟩
  refine ⟨houtcomes.trans (List.map_congr_left fun p hp =>
    admission_eq_ok_iff.mpr (hfit p hp)), ?_⟩
  rw [hwire, List.filter_eq_self.mpr fun p hp => decide_eq_true (hfit p hp)]

theorem CutAt.after {payloads whole : List Bytes} {kept : Nat} {ending : Error}
    (h : CutAt payloads kept whole ending) (payload : Bytes) :
    CutAt (payload :: payloads) ((framed payload).length + kept) (payload :: whole) ending := by
  cases h with
  | between hp =>
      rw [hp, ← List.cons_append, ← List.length_append, ← wire_cons]
      exact .between rfl
  | inside hp hpos hlt =>
      rw [hp, ← List.cons_append, ← Nat.add_assoc, ← List.length_append, ← wire_cons]
      exact .inside rfl hpos hlt

/-- Every cut is between two frames or inside one. -/
theorem exists_cutAt (payloads : List Bytes) {kept : Nat}
    (h : kept ≤ (wire payloads).length) : ∃ whole ending, CutAt payloads kept whole ending := by
  induction payloads generalizing kept with
  | nil =>
      have h0 : kept = 0 := Nat.le_zero.mp h
      rw [h0]
      exact ⟨[], _, @CutAt.between [] [] [] rfl⟩
  | cons payload rest ih =>
      by_cases h0 : kept = 0
      · rw [h0]
        exact ⟨[], _, @CutAt.between _ [] _ rfl⟩
      by_cases hin : kept < Header.size + payload.length
      · rw [← Nat.zero_add kept]
        exact ⟨[], _, @CutAt.inside _ [] _ _ _ rfl (Nat.pos_of_ne_zero h0) hin⟩
      · -- The first frame is whole, and the cut goes through what follows it.
        rw [wire_cons, List.length_append] at h
        have hrest : kept - (framed payload).length ≤ (wire rest).length := by omega
        rcases ih hrest with ⟨whole, ending, hcut⟩
        have hback : kept = (framed payload).length + (kept - (framed payload).length) := by
          rw [length_framed]
          omega
        rw [hback]
        exact ⟨_, _, hcut.after payload⟩

/-- The bytes up to a cut hold the whole payloads, and end as the cut says. -/
theorem drain_of_cutAt {max : Nat} {payloads whole : List Bytes} {kept : Nat} {ending : Error}
    (h : CutAt payloads kept whole ending) (hfit : ∀ payload ∈ payloads, Fits max payload) :
    (drain max ((wire payloads).take kept)).1 = whole ∧
      (drain max ((wire payloads).take kept)).2.getD .connectionClosed = ending := by
  cases h with
  | @between _ rest hp =>
      have hwhole : ∀ p ∈ whole, Fits max p :=
        fun p hm => hfit p (by rw [hp]; exact List.mem_append_left _ hm)
      have hdrain := drain_wire_append hwhole []
      rw [List.append_nil, drain_nil, List.append_nil] at hdrain
      rw [hp, wire_append, List.take_left, hdrain]
      exact ⟨rfl, rfl⟩
  | @inside _ rest payload part hp hpos hlt =>
      have hwhole : ∀ p ∈ whole, Fits max p :=
        fun p hm => hfit p (by rw [hp]; exact List.mem_append_left _ hm)
      have hlast : Fits max payload :=
        hfit payload (by rw [hp]; exact List.mem_append_right _ List.mem_cons_self)
      -- The cut does not reach the frames behind the one that it goes through.
      have htake : (framed payload ++ wire rest).take part = (framed payload).take part := by
        rw [List.take_append_of_le_length]
        rw [length_framed]
        omega
      rw [hp, wire_append, wire_cons, List.take_length_add_append, htake,
        drain_wire_append hwhole, drain_cut hlast hpos hlt, List.append_nil]
      exact ⟨rfl, rfl⟩

/-- Payloads that fit are written whole, whatever pieces the stream takes them
    in. Over a wire that is then cut, whatever pieces the rest comes in, one
    reads the payloads whose frames are whole, in order, and one error that
    tells where the cut was. -/
theorem readMany_of_cut {out : Stream σ} {inp : Stream τ} {s s' : σ} {ledger : Ledger}
    {writeMax readMax : Nat} {payloads : List Bytes} {outcomes : List (Except Error Unit)}
    (hs : out.Accepts s) (hw : ∀ payload ∈ payloads, Fits writeMax payload)
    (hr : ∀ payload ∈ payloads, payload.length ≤ readMax)
    (hsent : writeMany out.recorded writeMax payloads (s, .blank) = (outcomes, s', ledger)) :
    outcomes = payloads.map (fun _ => .ok ()) ∧ ledger.written = wire payloads ∧
      ∀ kept ≤ ledger.written.length, ∀ t, inp.Delivers t (ledger.written.take kept) →
        (∃ whole ending, CutAt payloads kept whole ending) ∧
          ∀ whole ending, CutAt payloads kept whole ending →
            (readMany inp readMax (whole.length + 1) t).1 =
              whole.map .ok ++ [.error ending] := by
  rcases writeMany_of_accepts (recorded_tracks out) (hs.recorded .blank) hw with
    ⟨hoks, hwire⟩
  rw [hsent] at hoks hwire
  have hwritten : ledger.written = wire payloads := hwire
  refine ⟨hoks, hwritten, ?_⟩
  intro kept hkept t ht
  rw [hwritten] at hkept ht
  refine ⟨exists_cutAt payloads hkept, ?_⟩
  intro whole ending hcut
  rcases drain_of_cutAt hcut (fun p hm => ⟨hr p hm, (hw p hm).2⟩) with ⟨hwhole, hending⟩
  have hread := readMany_of_delivers ht readMax
  rw [hwhole, hending] at hread
  exact hread

/-- Three payloads, one of them empty. -/
def three : List Bytes := [[1, 2], [], [7]]

/-- A stream that takes a byte, is interrupted, takes three, and then takes
    all; its first flush is interrupted. -/
def stingy : Script :=
  { left := [], reads := [], writes := [.ok 1, .error (.bare .interrupted), .ok 3],
    flushes := [some (.bare .interrupted)], shutdowns := [] }

/-- What comes through of three payloads if the wire is cut behind the third
    header. -/
def severed : Script :=
  { left := [], reads := [.chunk [0, 0, 0], .chunk [2, 1], .fault (.bare .interrupted),
      .chunk [2, 0, 0, 0, 0, 0, 0], .chunk [0, 1]], writes := [], flushes := [],
    shutdowns := [] }

/-- Cut behind the third header, the wire of three payloads gives the first
    two and tells that the third lacks all of its one byte. -/
theorem readMany_of_cut_severed :
    Script.stream.Accepts stingy ∧ (∀ payload ∈ three, Fits 8 payload) ∧
      (∀ payload ∈ three, payload.length ≤ 16) ∧
      Script.stream.Delivers severed ((wire three).take 14) ∧
      (readMany Script.stream 16 3 severed).1 =
        [.ok [1, 2], .ok [], .error (.truncated 1 0)] := by
  have hs : Script.stream.Accepts stingy := Script.accepts (by decide) (by decide)
  have ht : Script.stream.Delivers severed ((wire three).take 14) := Script.delivers (by decide)
  have hw : ∀ payload ∈ three, Fits 8 payload := by decide
  have hr : ∀ payload ∈ three, payload.length ≤ 16 := by decide
  have hcut : CutAt three 14 [[1, 2], []] (.truncated 1 0) :=
    @CutAt.inside three [[1, 2], []] [] [7] 4 rfl (by decide) (by decide)
  rcases readMany_of_cut hs hw hr rfl with ⟨_, hwritten, hall⟩
  rw [hwritten] at hall
  exact ⟨hs, hw, hr, ht, (hall 14 (by decide) severed ht).2 _ _ hcut⟩

end FramedIpc.Frame
