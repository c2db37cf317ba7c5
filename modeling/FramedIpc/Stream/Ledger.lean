import FramedIpc.Stream.Basic

/-!
# Recorded Streams

A ledger notes every call that reaches a stream: how many there were of each
kind, the bytes that the stream took, and those that it gave. A recorded
stream is any stream with a ledger beside it; the calls themselves go through
unchanged.

## Main definitions

* `Ledger`: What was noted.
* `Stream.recorded`: A stream that notes every call.
-/

namespace FramedIpc

/-- What was noted of the calls on a stream. -/
structure Ledger where
  /-- The bytes that the stream took, in order. -/
  written : Bytes
  /-- The bytes that the stream gave, in order. -/
  taken : Bytes
  reads : Nat
  writes : Nat
  flushes : Nat
  shutdowns : Nat
  deriving DecidableEq, Repr

namespace Ledger

/-- Nothing noted yet. -/
def blank : Ledger := ⟨[], [], 0, 0, 0, 0⟩

/-- Note a read and how it ended. -/
def noteRead (outcome : Except Fault Bytes) (ledger : Ledger) : Ledger :=
  match outcome with
  | .ok bs => { ledger with reads := ledger.reads + 1, taken := ledger.taken ++ bs }
  | .error _ => { ledger with reads := ledger.reads + 1 }

/-- Note a write of `bs` and how it ended. -/
def noteWrite (bs : Bytes) (outcome : Except Fault Nat) (ledger : Ledger) : Ledger :=
  match outcome with
  | .ok n => { ledger with writes := ledger.writes + 1, written := ledger.written ++ bs.take n }
  | .error _ => { ledger with writes := ledger.writes + 1 }

/-- Note a flush. -/
def noteFlush (ledger : Ledger) : Ledger :=
  { ledger with flushes := ledger.flushes + 1 }

/-- Note a shutdown. -/
def noteShutdown (ledger : Ledger) : Ledger :=
  { ledger with shutdowns := ledger.shutdowns + 1 }

@[simp]
theorem shutdowns_noteRead (outcome : Except Fault Bytes) (ledger : Ledger) :
    (ledger.noteRead outcome).shutdowns = ledger.shutdowns := by
  cases outcome with
  | ok bs => rfl
  | error fault => rfl

@[simp]
theorem shutdowns_noteWrite (bs : Bytes) (outcome : Except Fault Nat) (ledger : Ledger) :
    (ledger.noteWrite bs outcome).shutdowns = ledger.shutdowns := by
  cases outcome with
  | ok n => rfl
  | error fault => rfl

@[simp]
theorem reads_noteWrite (bs : Bytes) (outcome : Except Fault Nat) (ledger : Ledger) :
    (ledger.noteWrite bs outcome).reads = ledger.reads := by
  cases outcome with
  | ok n => rfl
  | error fault => rfl

end Ledger

namespace Stream

/-- A stream that notes every call in a ledger. -/
def recorded {σ : Type} (io : Stream σ) : Stream (σ × Ledger) where
  read n s := ((io.read n s.1).1, ((io.read n s.1).2, s.2.noteRead (io.read n s.1).1))
  write bs s :=
    ((io.write bs s.1).1, ((io.write bs s.1).2, s.2.noteWrite bs (io.write bs s.1).1))
  flush s := ((io.flush s.1).1, ((io.flush s.1).2, s.2.noteFlush))
  shutdown s := ((io.shutdown s.1).1, ((io.shutdown s.1).2, s.2.noteShutdown))
  patience s := io.patience s.1
  read_le n s := io.read_le n s.1
  write_le bs s := io.write_le bs s.1
  read_interrupts n s := io.read_interrupts n s.1
  write_interrupts bs s := io.write_interrupts bs s.1
  flush_interrupts s := io.flush_interrupts s.1

end Stream

end FramedIpc
