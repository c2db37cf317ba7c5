import FramedIpc.Stream.Ledger

/-!
# Polled Streams

A polled stream has the calls of a stream, but a call may also answer that it
is not ready. It is then made again later. Nobody has to wait for that: a
caller may lose patience and do something else, and what a call left behind
in the state stays there.

`await` makes a call until it is ready, or until it has answered so many
times that it is not. What an operation does when it is dropped half-way is
therefore what it does when its patience runs out, at whichever of its calls.

## Main definitions

* `Poll`: An answer, or that there is none yet.
* `PolledStream`: The calls of a polled stream.
* `Stream.polled`: A stream that is always ready.
* `Waited`: What came of waiting.
* `await`: Make a call until it is ready.
-/

namespace FramedIpc

/-- An answer, or that there is none yet. -/
inductive Poll (α : Type) where
  | ready (answer : α)
  | pending
  deriving Repr

/-- A polled stream whose state is a `σ`. -/
structure PolledStream (σ : Type) where
  /-- Take up to so many bytes. No bytes mean that the stream has ended. -/
  read : Nat → σ → Poll (Except Fault Bytes) × σ
  /-- Hand over some bytes. The answer is how many of them were taken. -/
  write : Bytes → σ → Poll (Except Fault Nat) × σ
  /-- Pass on what was handed over. -/
  flush : σ → Poll (Except Fault Unit) × σ
  /-- End both directions. -/
  shutdown : σ → Poll (Except Fault Unit) × σ
  read_le : ∀ n s bs, (read n s).1 = .ready (.ok bs) → bs.length ≤ n
  write_le : ∀ bs s n, (write bs s).1 = .ready (.ok n) → n ≤ bs.length

namespace PolledStream

variable {σ : Type}

/-- A polled stream that notes in a ledger every call that was ready. -/
def recorded (io : PolledStream σ) : PolledStream (σ × Ledger) where
  read n s :=
    ((io.read n s.1).1, ((io.read n s.1).2,
      match (io.read n s.1).1 with
      | .ready outcome => s.2.noteRead outcome
      | .pending => s.2))
  write bs s :=
    ((io.write bs s.1).1, ((io.write bs s.1).2,
      match (io.write bs s.1).1 with
      | .ready outcome => s.2.noteWrite bs outcome
      | .pending => s.2))
  flush s :=
    ((io.flush s.1).1, ((io.flush s.1).2,
      match (io.flush s.1).1 with
      | .ready _ => s.2.noteFlush
      | .pending => s.2))
  shutdown s :=
    ((io.shutdown s.1).1, ((io.shutdown s.1).2,
      match (io.shutdown s.1).1 with
      | .ready _ => s.2.noteShutdown
      | .pending => s.2))
  read_le n s := io.read_le n s.1
  write_le bs s := io.write_le bs s.1

end PolledStream

/-- A stream as a polled stream that is always ready. -/
def Stream.polled {σ : Type} (io : Stream σ) : PolledStream σ where
  read n s := (.ready (io.read n s).1, (io.read n s).2)
  write bs s := (.ready (io.write bs s).1, (io.write bs s).2)
  flush s := (.ready (io.flush s).1, (io.flush s).2)
  shutdown s := (.ready (io.shutdown s).1, (io.shutdown s).2)
  read_le n s bs h := io.read_le n s bs (Poll.ready.inj h)
  write_le bs s n h := io.write_le bs s n (Poll.ready.inj h)

/-- What came of waiting: an answer and the patience that is left, or nothing
    if the patience ran out. -/
abbrev Waited (α : Type) := Option (α × Nat)

/-- Make a call until it is ready, or until it was not for more than
    `patience` times. -/
def await {σ α : Type} (poll : σ → Poll α × σ) : Nat → σ → Waited α × σ
  | patience, s =>
    match poll s with
    | (.ready answer, s') => (some (answer, patience), s')
    | (.pending, s') =>
      match patience with
      | 0 => (none, s')
      | patience + 1 => await poll patience s'

end FramedIpc
