import FramedIpc.Proofs.Frame.Exchange

/-!
# The Two Readers Agree

There are two ways to get payloads out of bytes. One reads from a stream,
exactly what it needs, and is told of the end by a read that gives nothing.
The other is handed pieces as they come, keeps them in a buffer, and is asked
once more when no piece will follow. They share no code but the header.

`readMany_eq_collect` says that nobody can tell which of them was used. For
any bytes, well formed or not, cut up in two ways that have nothing to do with
each other, the payloads are the same, and the ending is the same down to the
numbers in it. The one difference is a word: where the bytes end between two
frames, the stream is called closed and the buffer just has nothing more.

## Main definitions

* `readMany`: The outcomes of some reads in a row.

## Theorems

* `readMany_of_delivers`: Reading until an error is draining the bytes to come.
* `readMany_eq_collect`: The two readers agree.
-/

namespace FramedIpc.Frame

open FramedIpc.Stream

variable {σ : Type}

/-- The outcomes of so many reads in a row, and the state after them. -/
def readMany (io : Stream σ) (max : Nat) : Nat → σ → List (Except Error Bytes) × σ
  | 0, s => ([], s)
  | n + 1, s =>
    ((read io max s).1 :: (readMany io max n (read io max s).2).1,
      (readMany io max n (read io max s).2).2)

variable {io : Stream σ}

/-- Reading payloads until the first error is draining the bytes to come. -/
theorem readMany_of_delivers {s : σ} {left : Bytes} (h : io.Delivers s left) (max : Nat) :
    (readMany io max ((drain max left).1.length + 1) s).1 =
      (drain max left).1.map .ok ++ [.error ((drain max left).2.getD .connectionClosed)] := by
  induction left using take_induction max generalizing s with
  | error left error ht =>
      rcases hr : read io max s with ⟨outcome, s'⟩
      have houtcome := (read_of_delivers h hr).1
      rw [takeLast_of_error ht] at houtcome
      rw [drain_of_error ht]
      simp only [readMany, hr, houtcome, heard, List.length_nil, List.map_nil, List.nil_append,
        Option.getD_some]
  | none left ht =>
      -- Bytes that end between two frames are a closed stream to the one reader
      -- and no error to the other.
      rcases hr : read io max s with ⟨outcome, s'⟩
      have houtcome := (read_of_delivers h hr).1
      rw [takeLast_of_none ht] at houtcome
      rw [drain_of_none ht]
      by_cases he : left.isEmpty
      · simp only [readMany, hr, houtcome, he, if_true, heard, List.length_nil, List.map_nil,
          List.nil_append, Option.getD_none]
      · simp only [readMany, hr, houtcome, he, if_false, Bool.false_eq_true, heard,
          List.length_nil, List.map_nil, List.nil_append, Option.getD_some]
  | frame left payload rest ht ih =>
      rcases hr : read io max s with ⟨outcome, s'⟩
      rcases read_of_delivers h hr with ⟨houtcome, hd⟩
      rw [takeLast_of_frame ht] at houtcome
      have hrest := ih (hd payload rest ht)
      rw [drain_of_frame ht]
      simp only [List.length_cons, List.map_cons, List.cons_append]
      rw [readMany, hr, houtcome, heard]
      simp only []
      rw [hrest]

/-- The two readers agree. Pieces of the bytes give the payloads that reads
    from a stream give before the first error, and end with the same error. The
    bytes are either cut short inside a frame or go on with a frame that is
    too large, unless they end between two frames: there the pieces end
    without an error and the stream is closed. -/
theorem readMany_eq_collect {s : σ} {pieces : List Bytes} (h : io.Delivers s pieces.flatten)
    (max : Nat) :
    (readMany io max ((collect max pieces).1.length + 1) s).1 =
        (collect max pieces).1.map .ok ++
          [.error ((collect max pieces).2.getD .connectionClosed)] ∧
      ∀ error, (collect max pieces).2 = some error →
        (∃ expected received, error = .truncated expected received) ∨
          ∃ size, error = .payloadTooLarge size max := by
  rw [collect_eq_drain]
  exact ⟨readMany_of_delivers h max, fun error he => drain_ending he⟩

/-- The bytes of a whole frame and of one that is cut short, in four pieces
    with an interruption among them. -/
def choppy : Script :=
  { left := [], reads := [.chunk [0, 0], .chunk [0, 2, 1], .fault (.bare .interrupted),
      .chunk [2, 0, 0, 0], .chunk [5, 7]], writes := [], flushes := [], shutdowns := [] }

theorem choppy_delivers :
    Script.stream.Delivers choppy [[0], [0, 0, 2, 1, 2, 0], [0, 0, 5, 7]].flatten :=
  Script.delivers (by decide)

/-- Cut up in two ways, these bytes are one payload and a frame that has one of
    five bytes. -/
theorem readMany_eq_collect_choppy :
    Script.stream.Delivers choppy [[0], [0, 0, 2, 1, 2, 0], [0, 0, 5, 7]].flatten ∧
      (readMany Script.stream 16 2 choppy).1 = [.ok [1, 2], .error (.truncated 5 1)] ∧
      collect 16 [[0], [0, 0, 2, 1, 2, 0], [0, 0, 5, 7]] = ([[1, 2]], some (.truncated 5 1)) := by
  have hcollect :
      collect 16 [[0], [0, 0, 2, 1, 2, 0], [0, 0, 5, 7]] = ([[1, 2]], some (.truncated 5 1)) := by
    decide +kernel
  have hagree := (readMany_eq_collect choppy_delivers 16).1
  rw [hcollect] at hagree
  exact ⟨choppy_delivers, hagree, hcollect⟩

end FramedIpc.Frame
