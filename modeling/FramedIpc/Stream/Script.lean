import FramedIpc.Stream.Basic

/-!
# Scripted Streams

A stream whose every answer is written down before. Reads take their bytes
from the chunks of the script, a chunk at a time; writes take as many bytes
as the script allows. Where the script is silent the stream behaves well: it
has ended, takes all bytes, and flushes and shuts down without a fault.

## Main definitions

* `Script.Inbound`: What one entry gives to reads.
* `Script`: The entries to come.
* `Script.stream`: The stream that plays them.
-/

namespace FramedIpc.Stream

/-- What one entry gives to reads. -/
inductive Script.Inbound where
  /-- Bytes, for as many reads as they last. -/
  | chunk (bs : Bytes)
  /-- The end of the stream, for one read. -/
  | ended
  /-- A failed read. -/
  | fault (fault : Fault)

/-- The entries to come. -/
structure Script where
  /-- What is left of the chunk that reads take from. -/
  left : Bytes
  reads : List Script.Inbound
  /-- For each write, how many bytes it takes, or a fault. -/
  writes : List (Except Fault Nat)
  /-- For each flush, whether it fails. -/
  flushes : List (Option Fault)
  /-- For each shutdown, whether it fails. -/
  shutdowns : List (Option Fault)

namespace Script

/-- Take up to `n` bytes of a chunk and keep the rest. -/
def takeChunk (n : Nat) (chunk : Bytes) (script : Script) : Except Fault Bytes × Script :=
  (.ok (chunk.take n), { script with left := chunk.drop n })

/-- One read. -/
def read (n : Nat) (script : Script) : Except Fault Bytes × Script :=
  if script.left.isEmpty then
    match script.reads with
    | [] => (.ok [], script)
    | .chunk bs :: reads => takeChunk n bs { script with reads := reads }
    | .ended :: reads => (.ok [], { script with reads := reads })
    | .fault fault :: reads => (.error fault, { script with reads := reads })
  else takeChunk n script.left script

/-- One write. -/
def write (bs : Bytes) (script : Script) : Except Fault Nat × Script :=
  match script.writes with
  | [] => (.ok bs.length, script)
  | .ok n :: writes => (.ok (min n bs.length), { script with writes := writes })
  | .error fault :: writes => (.error fault, { script with writes := writes })

/-- How a call without data ends. -/
def outcome : Option Fault → Except Fault Unit
  | none => .ok ()
  | some fault => .error fault

/-- One flush. -/
def flush (script : Script) : Except Fault Unit × Script :=
  match script.flushes with
  | [] => (.ok (), script)
  | fault :: flushes => (outcome fault, { script with flushes := flushes })

/-- One shutdown. -/
def shutdown (script : Script) : Except Fault Unit × Script :=
  match script.shutdowns with
  | [] => (.ok (), script)
  | fault :: shutdowns => (outcome fault, { script with shutdowns := shutdowns })

/-- The entries that can still interrupt a call. -/
def patience (script : Script) : Nat :=
  script.reads.length + script.writes.length + script.flushes.length

theorem length_read_le (n : Nat) (script : Script) (bs : Bytes)
    (h : (read n script).1 = .ok bs) : bs.length ≤ n := by
  unfold read takeChunk at h
  split at h
  · split at h <;> cases h
    · exact Nat.zero_le _
    · exact List.length_take_le _ _
    · exact Nat.zero_le _
  · cases h
    exact List.length_take_le _ _

theorem write_le (bs : Bytes) (script : Script) (n : Nat)
    (h : (write bs script).1 = .ok n) : n ≤ bs.length := by
  unfold write at h
  split at h <;> cases h
  · exact Nat.le_refl _
  · exact Nat.min_le_right _ _

theorem patience_read_lt (n : Nat) (script : Script) (h : Interrupts (read n script).1) :
    (read n script).2.patience < script.patience := by
  unfold read takeChunk at *
  split at h
  · split at h
    · exact h.elim
    · exact h.elim
    · exact h.elim
    · rename_i he _ _ _ hr
      simp only [he, if_true, hr, patience, List.length_cons]
      omega
  · exact h.elim

theorem patience_write_lt (bs : Bytes) (script : Script)
    (h : Interrupts (write bs script).1) :
    (write bs script).2.patience < script.patience := by
  unfold write at *
  split at h
  · exact h.elim
  · exact h.elim
  · rename_i hw
    simp only [hw, patience, List.length_cons]
    omega

theorem patience_flush_lt (script : Script) (h : Interrupts (flush script).1) :
    (flush script).2.patience < script.patience := by
  unfold flush at *
  split at h
  · exact h.elim
  · rename_i hf
    simp only [hf, patience, List.length_cons]
    omega

/-- The stream that plays a script. -/
def stream : Stream Script where
  read := read
  write := write
  flush := flush
  shutdown := shutdown
  patience := patience
  read_le := length_read_le
  write_le := write_le
  read_interrupts := patience_read_lt
  write_interrupts := patience_write_lt
  flush_interrupts := patience_flush_lt

end Script

end FramedIpc.Stream
