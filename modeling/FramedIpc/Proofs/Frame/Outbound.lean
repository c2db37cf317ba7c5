import FramedIpc.Proofs.Frame.Cut
import FramedIpc.Proofs.Frame.Independence

/-!
# The Two Writers Agree

There are two ways to send a payload. One hands its frame to a stream and waits
until the stream has all of it. The other puts the frame behind whatever waits in
a buffer already, and leaves the rest to others. Each looks at the length of the
payload for itself, against two bounds, and either bound may be the smaller one.

`append_agrees` says that this makes no difference. A payload is taken by the one
if it is taken by the other, is refused for the same reason with the same numbers
in it, and what goes into the buffer is byte for byte what a stream gets that
refuses nothing. A payload that is refused leaves no trace, so the frames that
wait in the buffer are safe from it, and of any row of payloads the buffer ends
up with the frames of those that were taken.

## Main definitions

* `appendMany`: Put the frames of some payloads into a buffer.

## Theorems

* `append_eq_admission`: What is put into a buffer.
* `appendMany_eq_admission`: The frames of the payloads that fit.
* `append_agrees`: The two writers agree.
-/

namespace FramedIpc.Frame

open FramedIpc.Stream

variable {σ : Type}

/-- The outcomes of putting the frames of some payloads into a buffer one after
    another, and the buffer after them. -/
def appendMany (max : Nat) : List Bytes → Bytes → List (Except Error Unit) × Bytes
  | [], buffer => ([], buffer)
  | payload :: rest, buffer =>
    ((append max payload buffer).1 :: (appendMany max rest (append max payload buffer).2).1,
      (appendMany max rest (append max payload buffer).2).2)

/-- The frame of a payload that is admitted goes behind what the buffer holds,
    and nothing else changes it. -/
theorem append_eq_admission (max : Nat) (payload buffer : Bytes) :
    append max payload buffer =
      (admission max payload, buffer ++ wire ([payload].filter (Fits max ·))) := by
  rw [append, encodeWithin_eq_admission]
  rcases hadmission : admission max payload with error | _
  · rw [wire_filter_of_not_fits (not_fits_of_admission hadmission), List.append_nil]
    rfl
  · rw [wire_filter_of_fits (admission_eq_ok_iff.mp hadmission)]
    rfl

/-- A row of payloads leaves the frames of those that fit, in order. -/
theorem appendMany_eq_admission (max : Nat) (payloads : List Bytes) (buffer : Bytes) :
    appendMany max payloads buffer =
      (payloads.map (admission max), buffer ++ wire (payloads.filter (Fits max ·))) := by
  induction payloads generalizing buffer with
  | nil => exact Prod.ext rfl (List.append_nil _).symm
  | cons payload rest ih =>
      rw [appendMany, append_eq_admission, ih, List.append_assoc, ← wire_append,
        ← List.filter_append, List.singleton_append, List.map_cons]

theorem isOk_admission (max : Nat) (payload : Bytes) :
    (admission max payload).isOk = decide (Fits max payload) := by
  rcases hadmission : admission max payload with error | _
  · exact (decide_eq_false (not_fits_of_admission hadmission)).symm
  · exact (decide_eq_true (admission_eq_ok_iff.mp hadmission)).symm

/-- A payload is put into a buffer exactly if a stream that refuses nothing would
    get it, and else refused for the same reason; what goes into the buffer is
    what the stream gets, whatever either held before. A refused payload changes
    neither. A row of payloads therefore comes to the same in both, and leaves the
    frames of those that were not refused. -/
theorem append_agrees {io : Stream σ} {s : σ} (h : io.Accepts s) (max : Nat) (buffer : Bytes) :
    (∀ payload, ∃ s' ledger,
      write io.recorded max payload (s, .blank) = (admission max payload, (s', ledger)) ∧
      (∀ scratch, ∃ left, writeVia io.recorded max payload scratch (s, .blank) =
        (admission max payload, (s', ledger), left)) ∧
      append max payload buffer = (admission max payload, buffer ++ ledger.written) ∧
      (admission max payload = .ok () → encode payload = .ok ledger.written) ∧
      ∀ error, admission max payload = .error error →
        s' = s ∧ ledger = .blank ∧ append max payload buffer = (.error error, buffer)) ∧
    ∀ payloads, ∃ s' ledger,
      writeMany io.recorded max payloads (s, .blank) =
        (payloads.map (admission max), (s', ledger)) ∧
      appendMany max payloads buffer =
        (payloads.map (admission max), buffer ++ ledger.written) ∧
      ledger.written = wire (payloads.filter fun payload => (admission max payload).isOk) := by
  have htracks := recorded_tracks io
  constructor
  · intro payload
    rcases write_admits htracks (h.recorded .blank) max payload with
      ⟨⟨s', ledger⟩, hwrite, _, hwritten, hrefused⟩
    have hledger : ledger.written = wire ([payload].filter (Fits max ·)) := hwritten
    have happend := append_eq_admission max payload buffer
    rw [← hledger] at happend
    refine ⟨s', ledger, hwrite, ?_, happend, ?_, ?_⟩
    · intro scratch
      rcases writeVia_eq io.recorded max payload scratch (s, .blank) with ⟨left, hvia⟩
      rw [hwrite] at hvia
      exact ⟨left, hvia⟩
    · intro hadmitted
      have hfits := admission_eq_ok_iff.mp hadmitted
      exact encode_eq_ok_iff.mpr ⟨hfits.2, hledger.trans (wire_filter_of_fits hfits)⟩
    · intro error herror
      cases hrefused error herror
      rw [happend, herror]
      exact ⟨rfl, rfl, Prod.ext rfl (List.append_nil buffer)⟩
  · intro payloads
    rcases writeMany_admits htracks max payloads (h.recorded .blank) with ⟨houtcomes, hwritten⟩
    rcases hwrite : writeMany io.recorded max payloads (s, .blank) with ⟨outcomes, s', ledger⟩
    rw [hwrite] at houtcomes hwritten
    have hledger : ledger.written = wire (payloads.filter (Fits max ·)) := hwritten
    refine ⟨s', ledger, by rw [← houtcomes], ?_, ?_⟩
    · rw [hledger, appendMany_eq_admission]
    · rw [hledger]
      simp only [isOk_admission]

/-- Of three payloads one is too long. The other two go behind the byte that the
    buffer holds, as they go to a stream that takes them in pieces. -/
theorem append_agrees_stingy :
    Script.stream.Accepts stingy ∧
      appendMany 2 [[1, 2], [3, 4, 5], []] [9] =
        ([.ok (), .error (.payloadTooLarge 3 2), .ok ()],
          [9, 0, 0, 0, 2, 1, 2, 0, 0, 0, 0]) := by
  have hs : Script.stream.Accepts stingy := Script.accepts (by decide) (by decide)
  rcases (append_agrees hs 2 [9]).2 [[1, 2], [3, 4, 5], []] with ⟨_, ledger, _, happend, hwritten⟩
  rw [hwritten] at happend
  exact ⟨hs, happend⟩

end FramedIpc.Frame
