import FramedIpc.Stream.Basic

/-!
# Whole Reads and Writes

A call on a stream moves as many bytes as it likes. The loops here repeat it
until all bytes are moved, the stream ends, or a call fails for a reason
other than an interruption.

Each round either moves a byte or uses up patience, and the two together go
down: that is why the loops end.

## Main definitions

* `Stream.readWhole`: Read so many bytes, fewer only if the stream ends.
* `Stream.writeWhole`: Write all bytes, unless the stream takes no more.
* `Stream.flushWhole`: Flush, however often the call is interrupted.

## Theorems

* `readWhole_of_some`, `readWhole_of_end`, `readWhole_of_fault`: A round of a
  whole read, by what its call gives.
* `writeWhole_of_some`, `writeWhole_of_none`, `writeWhole_of_fault`: A round of
  a whole write.
* `flushWhole_of_done`, `flushWhole_of_fault`: A round of a whole flush.
-/

namespace FramedIpc.Stream

variable {σ : Type}

/-- Read `n` bytes. Fewer mean that the stream ended; the bytes read before a
    failure are lost. Each call asks for exactly the bytes still wanted. -/
def readWhole (io : Stream σ) (n : Nat) (s : σ) : Except Fault Bytes × σ :=
  if n = 0 then (.ok [], s)
  else
    match hr : io.read n s with
    | (.ok [], s') => (.ok [], s')
    | (.ok (b :: bs), s') =>
      match io.readWhole (n - (b :: bs).length) s' with
      | (.ok rest, s'') => (.ok (b :: bs ++ rest), s'')
      | (.error fault, s'') => (.error fault, s'')
    | (.error fault, s') =>
      -- An interrupted call has moved nothing, so it is made again as it was.
      if hi : fault.isInterrupted then
        have := io.patience_lt_of_read hr hi
        io.readWhole n s'
      else (.error fault, s')
termination_by (n, io.patience s)
decreasing_by
  · exact Prod.Lex.left _ _ (by simp only [List.length_cons]; omega)
  · exact Prod.Lex.right _ this

/-- Write all of some bytes. The answer is whether all were taken: a call that
    takes none says that the stream takes no more. -/
def writeWhole (io : Stream σ) (bs : Bytes) (s : σ) : Except Fault Bool × σ :=
  if bs.isEmpty then (.ok true, s)
  else
    match hw : io.write bs s with
    | (.ok 0, s') => (.ok false, s')
    | (.ok (n + 1), s') =>
      have := io.le_of_write hw
      io.writeWhole (bs.drop (n + 1)) s'
    | (.error fault, s') =>
      if hi : fault.isInterrupted then
        have := io.patience_lt_of_write hw hi
        io.writeWhole bs s'
      else (.error fault, s')
termination_by (bs.length, io.patience s)
decreasing_by
  · exact Prod.Lex.left _ _ (by simp only [List.length_drop]; omega)
  · exact Prod.Lex.right _ this

/-- Flush, however often the call is interrupted. -/
def flushWhole (io : Stream σ) (s : σ) : Except Fault Unit × σ :=
  match hf : io.flush s with
  | (.ok (), s') => (.ok (), s')
  | (.error fault, s') =>
    if hi : fault.isInterrupted then
      have := io.patience_lt_of_flush hf hi
      io.flushWhole s'
    else (.error fault, s')
termination_by io.patience s

section Rounds

variable {io : Stream σ} {n : Nat} {bs : Bytes} {s s' : σ} {fault : Fault}

theorem readWhole_zero (io : Stream σ) (s : σ) : io.readWhole 0 s = (.ok [], s) := by
  rw [readWhole, if_pos rfl]

theorem readWhole_of_end (hn : n ≠ 0) (hr : io.read n s = (.ok [], s')) :
    io.readWhole n s = (.ok [], s') := by
  rw [readWhole, if_neg hn]
  split <;> rename_i hr' <;> rw [hr] at hr' <;> cases hr'
  rfl

theorem readWhole_of_some (hn : n ≠ 0) (hbs : bs ≠ []) (hr : io.read n s = (.ok bs, s')) :
    io.readWhole n s = ((io.readWhole (n - bs.length) s').1.map (bs ++ ·),
      (io.readWhole (n - bs.length) s').2) := by
  rw [readWhole, if_neg hn]
  split <;> rename_i hr' <;> rw [hr] at hr' <;> cases hr'
  · exact absurd rfl hbs
  · rcases io.readWhole _ s' with ⟨fault | rest, s''⟩
    · rfl
    · rfl

theorem readWhole_of_fault (hn : n ≠ 0) (hr : io.read n s = (.error fault, s')) :
    io.readWhole n s =
      if fault.isInterrupted then io.readWhole n s' else (.error fault, s') := by
  rw [readWhole, if_neg hn]
  split <;> rename_i hr' <;> rw [hr] at hr' <;> cases hr'
  split <;> rfl

theorem writeWhole_nil (io : Stream σ) (s : σ) : io.writeWhole [] s = (.ok true, s) := by
  rw [writeWhole]
  rfl

theorem writeWhole_of_none (hbs : bs ≠ []) (hw : io.write bs s = (.ok 0, s')) :
    io.writeWhole bs s = (.ok false, s') := by
  rw [writeWhole, if_neg (mt List.isEmpty_iff.mp hbs)]
  split <;> rename_i hw' <;> rw [hw] at hw' <;> cases hw'
  rfl

theorem writeWhole_of_some (hbs : bs ≠ []) (hn : n ≠ 0) (hw : io.write bs s = (.ok n, s')) :
    io.writeWhole bs s = io.writeWhole (bs.drop n) s' := by
  rw [writeWhole, if_neg (mt List.isEmpty_iff.mp hbs)]
  split <;> rename_i hw' <;> rw [hw] at hw' <;> cases hw'
  · exact absurd rfl hn
  · rfl

theorem writeWhole_of_fault (hbs : bs ≠ []) (hw : io.write bs s = (.error fault, s')) :
    io.writeWhole bs s =
      if fault.isInterrupted then io.writeWhole bs s' else (.error fault, s') := by
  rw [writeWhole, if_neg (mt List.isEmpty_iff.mp hbs)]
  split <;> rename_i hw' <;> rw [hw] at hw' <;> cases hw'
  split <;> rfl

theorem flushWhole_of_done (hf : io.flush s = (.ok (), s')) :
    io.flushWhole s = (.ok (), s') := by
  rw [flushWhole]
  split <;> rename_i hf' <;> rw [hf] at hf' <;> cases hf'
  rfl

theorem flushWhole_of_fault (hf : io.flush s = (.error fault, s')) :
    io.flushWhole s =
      if fault.isInterrupted then io.flushWhole s' else (.error fault, s') := by
  rw [flushWhole]
  split <;> rename_i hf' <;> rw [hf] at hf' <;> cases hf'
  split <;> rfl

end Rounds

end FramedIpc.Stream
