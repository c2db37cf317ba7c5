import FramedIpc.Fault
import FramedIpc.Text.Utf8

/-!
# Streams

A stream of bytes in both directions, as its user sees it: four calls, each
of which may fail and each of which changes the state behind the stream. How
many bytes a call moves is up to the stream, within what was asked for.

A call may be interrupted, in which case it is made again. Only finitely many
calls in a row are interrupted: that is the one promise a stream makes about
time, and it makes it by a measure, `patience`, that every interruption
lowers. The loops that read and write whole frames end because of it.

## Main definitions

* `Stream`: The four calls of a stream and what they promise.
* `Interrupts`: Whether a call was only interrupted.
-/

namespace FramedIpc

/-- Whether a call was only interrupted. -/
def Interrupts {α : Type} : Except Fault α → Prop
  | .ok _ => False
  | .error fault => fault.isInterrupted = true

/-- A stream whose state is a `σ`. -/
structure Stream (σ : Type) where
  /-- Take up to so many bytes. No bytes mean that the stream has ended. -/
  read : Nat → σ → Except Fault Bytes × σ
  /-- Hand over some bytes. The answer is how many of them were taken. -/
  write : Bytes → σ → Except Fault Nat × σ
  /-- Pass on what was handed over. -/
  flush : σ → Except Fault Unit × σ
  /-- End both directions. -/
  shutdown : σ → Except Fault Unit × σ
  /-- A bound on the interruptions to come. -/
  patience : σ → Nat
  read_le : ∀ n s bs, (read n s).1 = .ok bs → bs.length ≤ n
  write_le : ∀ bs s n, (write bs s).1 = .ok n → n ≤ bs.length
  read_interrupts : ∀ n s, Interrupts (read n s).1 → patience (read n s).2 < patience s
  write_interrupts : ∀ bs s, Interrupts (write bs s).1 → patience (write bs s).2 < patience s
  flush_interrupts : ∀ s, Interrupts (flush s).1 → patience (flush s).2 < patience s

namespace Stream

variable {σ : Type} (io : Stream σ)

theorem length_le_of_read {n : Nat} {s s' : σ} {bs : Bytes}
    (h : io.read n s = (.ok bs, s')) : bs.length ≤ n :=
  io.read_le n s bs (by rw [h])

theorem le_of_write {bs : Bytes} {s s' : σ} {n : Nat}
    (h : io.write bs s = (.ok n, s')) : n ≤ bs.length :=
  io.write_le bs s n (by rw [h])

theorem patience_lt_of_read {n : Nat} {s s' : σ} {fault : Fault}
    (h : io.read n s = (.error fault, s')) (hi : fault.isInterrupted = true) :
    io.patience s' < io.patience s := by
  have := io.read_interrupts n s
  rw [h] at this
  exact this hi

theorem patience_lt_of_write {bs : Bytes} {s s' : σ} {fault : Fault}
    (h : io.write bs s = (.error fault, s')) (hi : fault.isInterrupted = true) :
    io.patience s' < io.patience s := by
  have := io.write_interrupts bs s
  rw [h] at this
  exact this hi

theorem patience_lt_of_flush {s s' : σ} {fault : Fault}
    (h : io.flush s = (.error fault, s')) (hi : fault.isInterrupted = true) :
    io.patience s' < io.patience s := by
  have := io.flush_interrupts s
  rw [h] at this
  exact this hi

end Stream

end FramedIpc
