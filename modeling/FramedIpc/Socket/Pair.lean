import FramedIpc.Socket.Host

/-!
# Socket Pairs

Two sockets that are connected to each other. What one end writes waits until
the other reads it, and there is room for so many bytes in each direction.

Either end may end both directions. What waits can still be read then, after
it reads find the end, and no write succeeds. When an end goes away with
bytes unread, the other is told so once, after what waits for it.

A call that would have to wait here waits as long as it may, and fails.

## Main definitions

* `Pair`: The state of the two ends.
* `Pair.near`, `Pair.far`: The stream of an end.
* `Pair.closeFar`: The far end goes away.
* `Pair.socket`: The socket of the near end.
-/

namespace FramedIpc

/-- Two sockets that are connected to each other. -/
structure Pair where
  /-- What waits to be read at the near end. -/
  toNear : Bytes
  /-- What waits to be read at the far end. -/
  toFar : Bytes
  /-- Whether both directions have been ended. -/
  ended : Bool
  /-- Whether the far end went away with bytes unread and the near end was not
      told yet. -/
  reset : Bool
  deriving DecidableEq, Repr

namespace Pair

/-- Two ends on which nothing has happened. -/
def fresh : Pair := ⟨[], [], false, false⟩

/-- The bytes that may wait in one direction. -/
def capacity : Nat := 219264

/-- Take up to `n` of the bytes that wait. Where none wait the direction has
    ended or has not. -/
def taken (n : Nat) (ended : Bool) (waiting : Bytes) : Except Fault Bytes :=
  if waiting.isEmpty then (if ended then .ok [] else .error Fault.wouldBlock)
  else .ok (waiting.take n)

/-- How many of `bs` there is room for. -/
def room (bs : Bytes) (ended : Bool) (waiting : Bytes) : Except Fault Nat :=
  if ended then .error Fault.brokenPipe
  else if bs.isEmpty then .ok 0
  else if capacity ≤ waiting.length then .error Fault.wouldBlock
  else .ok (min bs.length (capacity - waiting.length))

/-- The first so many of some bytes, if there is room for any. -/
def accepted (bs : Bytes) : Except Fault Nat → Bytes
  | .ok n => bs.take n
  | .error _ => []

/-- A read at the near end. -/
def readNear (n : Nat) (pair : Pair) : Except Fault Bytes × Pair :=
  -- What waits is read first; then the loss is told of, once.
  if pair.reset && pair.toNear.isEmpty then (.error Fault.reset, { pair with reset := false })
  else (taken n pair.ended pair.toNear, { pair with toNear := pair.toNear.drop n })

/-- A read at the far end. -/
def readFar (n : Nat) (pair : Pair) : Except Fault Bytes × Pair :=
  (taken n pair.ended pair.toFar, { pair with toFar := pair.toFar.drop n })

/-- A write at the near end. -/
def writeNear (bs : Bytes) (pair : Pair) : Except Fault Nat × Pair :=
  let outcome := room bs pair.ended pair.toFar
  (outcome, { pair with toFar := pair.toFar ++ accepted bs outcome })

/-- A write at the far end. -/
def writeFar (bs : Bytes) (pair : Pair) : Except Fault Nat × Pair :=
  let outcome := room bs pair.ended pair.toNear
  (outcome, { pair with toNear := pair.toNear ++ accepted bs outcome })

/-- Either end ends both directions. -/
def shutdown (pair : Pair) : Except Fault Unit × Pair :=
  (.ok (), { pair with ended := true })

/-- The far end goes away. -/
def closeFar (pair : Pair) : Pair :=
  { pair with ended := true, reset := !pair.toFar.isEmpty, toFar := [] }

theorem length_taken_le {n : Nat} {ended : Bool} {waiting bs : Bytes}
    (h : taken n ended waiting = .ok bs) : bs.length ≤ n := by
  unfold taken at h
  split at h
  · split at h
    · cases h
      exact Nat.zero_le _
    · cases h
  · cases h
    exact List.length_take_le _ _

theorem room_le {bs waiting : Bytes} {ended : Bool} {n : Nat}
    (h : room bs ended waiting = .ok n) : n ≤ bs.length := by
  unfold room at h
  split at h
  · cases h
  split at h
  · cases h
    exact Nat.zero_le _
  split at h
  · cases h
  · cases h
    exact Nat.min_le_left _ _

theorem not_interrupts_taken {n : Nat} {ended : Bool} {waiting : Bytes} :
    ¬ Interrupts (taken n ended waiting) := by
  unfold taken
  split
  · split
    · exact id
    · exact Bool.false_ne_true
  · exact id

theorem not_interrupts_room {bs waiting : Bytes} {ended : Bool} :
    ¬ Interrupts (room bs ended waiting) := by
  unfold room
  split
  · exact Bool.false_ne_true
  split
  · exact id
  split
  · exact Bool.false_ne_true
  · exact id

theorem length_readNear_le (n : Nat) (pair : Pair) (bs : Bytes)
    (h : (readNear n pair).1 = .ok bs) : bs.length ≤ n := by
  unfold readNear at h
  split at h
  · cases h
  · exact length_taken_le h

theorem not_interrupts_readNear (n : Nat) (pair : Pair) :
    ¬ Interrupts (readNear n pair).1 := by
  unfold readNear
  split
  · exact Bool.false_ne_true
  · exact not_interrupts_taken

/-- The stream of the near end. -/
def near : Stream Pair where
  read := readNear
  write := writeNear
  flush pair := (.ok (), pair)
  shutdown := shutdown
  patience _ := 0
  read_le := length_readNear_le
  write_le _ _ _ h := room_le h
  read_interrupts n pair h := absurd h (not_interrupts_readNear n pair)
  write_interrupts _ _ h := absurd h not_interrupts_room
  flush_interrupts _ h := absurd h id

/-- The stream of the far end. -/
def far : Stream Pair where
  read := readFar
  write := writeFar
  flush pair := (.ok (), pair)
  shutdown := shutdown
  patience _ := 0
  read_le _ _ _ h := length_taken_le h
  write_le _ _ _ h := room_le h
  read_interrupts _ _ h := absurd h not_interrupts_taken
  write_interrupts _ _ h := absurd h not_interrupts_room
  flush_interrupts _ h := absurd h id

/-- The socket of the near end. -/
def socket : Socket Pair where
  stream := near
  limitReads limit pair := (checkLimit limit, pair)
  limitWrites limit pair := (checkLimit limit, pair)

end Pair

end FramedIpc
