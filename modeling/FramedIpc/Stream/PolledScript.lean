import FramedIpc.Stream.Polled
import FramedIpc.Stream.Script

/-!
# Scripted Polled Streams

A scripted stream in which a read or a write may also find that nothing is
ready: such an entry is used up by the call that meets it. Bytes that are
left of a chunk are always ready.

## Main definitions

* `PolledScript`: A script with entries that are not ready.
* `PolledScript.stream`: The polled stream that plays it.
-/

namespace FramedIpc.PolledStream

open FramedIpc.Stream

/-- The entries to come. Their meaning is that of a script's, once they are
    ready. -/
structure PolledScript where
  /-- What is left of the chunk that reads take from. -/
  left : Bytes
  reads : List (Poll Script.Inbound)
  writes : List (Poll (Except Fault Nat))
  flushes : List (Option Fault)
  shutdowns : List (Option Fault)

namespace PolledScript

/-- One read. -/
def read (n : Nat) (script : PolledScript) : Poll (Except Fault Bytes) × PolledScript :=
  if script.left.isEmpty then
    match script.reads with
    | [] => (.ready (.ok []), script)
    | .pending :: reads => (.pending, { script with reads := reads })
    | .ready (.chunk bs) :: reads =>
      (.ready (.ok (bs.take n)), { script with reads := reads, left := bs.drop n })
    | .ready .ended :: reads => (.ready (.ok []), { script with reads := reads })
    | .ready (.fault fault) :: reads => (.ready (.error fault), { script with reads := reads })
  else (.ready (.ok (script.left.take n)), { script with left := script.left.drop n })

/-- One write. -/
def write (bs : Bytes) (script : PolledScript) : Poll (Except Fault Nat) × PolledScript :=
  match script.writes with
  | [] => (.ready (.ok bs.length), script)
  | .pending :: writes => (.pending, { script with writes := writes })
  | .ready (.ok n) :: writes => (.ready (.ok (min n bs.length)), { script with writes := writes })
  | .ready (.error fault) :: writes => (.ready (.error fault), { script with writes := writes })

/-- One flush. -/
def flush (script : PolledScript) : Poll (Except Fault Unit) × PolledScript :=
  match script.flushes with
  | [] => (.ready (.ok ()), script)
  | fault :: flushes => (.ready (Script.outcome fault), { script with flushes := flushes })

/-- One shutdown. -/
def shutdown (script : PolledScript) : Poll (Except Fault Unit) × PolledScript :=
  match script.shutdowns with
  | [] => (.ready (.ok ()), script)
  | fault :: shutdowns => (.ready (Script.outcome fault), { script with shutdowns := shutdowns })

/-- How many answers that nothing is ready are still to come, at most. -/
def waits (script : PolledScript) : Nat :=
  script.reads.length + script.writes.length

theorem length_read_le (n : Nat) (script : PolledScript) (bs : Bytes)
    (h : (read n script).1 = .ready (.ok bs)) : bs.length ≤ n := by
  unfold read at h
  split at h
  · split at h <;> cases h
    · exact Nat.zero_le _
    · exact List.length_take_le _ _
    · exact Nat.zero_le _
  · cases h
    exact List.length_take_le _ _

theorem taken_le (bs : Bytes) (script : PolledScript) (n : Nat)
    (h : (write bs script).1 = .ready (.ok n)) : n ≤ bs.length := by
  unfold write at h
  split at h <;> cases h
  · exact Nat.le_refl _
  · exact Nat.min_le_right _ _

/-- The polled stream that plays a script. -/
def stream : PolledStream PolledScript where
  read := read
  write := write
  flush := flush
  shutdown := shutdown
  read_le := length_read_le
  write_le := taken_le

end PolledScript

end FramedIpc.PolledStream
