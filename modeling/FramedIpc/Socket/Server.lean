import FramedIpc.Socket.Pair

/-!
# Scripted Servers

A server at the far end of a pair, everything it does written down before. It
greets, then takes a step for each frame that arrives, and once its script is
over reads on and answers nothing. It acts as soon as it can, which is when
something is written to it.

A server that is sent what it cannot read goes away.

## Main definitions

* `Server.Step`: What the server does with a frame.
* `Server`: A server and the pair it sits at.
* `Server.socket`: The socket of whoever talks to it.
-/

namespace FramedIpc

/-- What a server does with the next frame. -/
inductive Server.Step where
  /-- Write some bytes in answer, and maybe go away after that. -/
  | answer (reply : Bytes) (leaves : Bool)
  /-- Leave it unread, and everything after it. -/
  | stall
  deriving DecidableEq, Repr

/-- A server and the pair at whose far end it sits. -/
structure Server where
  pair : Pair
  /-- The steps to come. -/
  steps : List Server.Step
  /-- The payloads that were read. -/
  requests : List Bytes
  deriving DecidableEq, Repr

namespace Server

/-- Take as many steps as what has arrived allows. -/
def advance : List Step → Pair → List Bytes → Server
  | [], pair, requests => ⟨{ pair with toFar := [] }, [], requests⟩
  | .stall :: steps, pair, requests => ⟨pair, .stall :: steps, requests⟩
  | .answer reply leaves :: steps, pair, requests =>
    match Frame.take Frame.standardLimit pair.toFar with
    -- The header was read; whatever follows it goes unread.
    | .error _ => ⟨{ pair with toFar := pair.toFar.drop Header.size }.closeFar, [], requests⟩
    | .ok none => ⟨pair, .answer reply leaves :: steps, requests⟩
    | .ok (some (payload, rest)) =>
      let answered := { pair with toFar := rest, toNear := pair.toNear ++ reply }
      if leaves then ⟨answered.closeFar, [], requests ++ [payload]⟩
      else advance steps answered (requests ++ [payload])

/-- A server that has been connected to and has greeted. -/
def greeting (hello : Bytes) (steps : List Step) : Server :=
  ⟨{ Pair.fresh with toNear := hello }, steps, []⟩

/-- The bytes that there is room for while the server reads along. -/
def roomFor (bs : Bytes) (server : Server) : Except Fault Nat :=
  match server.steps with
  | .stall :: _ => Pair.room bs server.pair.ended server.pair.toFar
  | _ => if server.pair.ended then .error Fault.brokenPipe else .ok bs.length

/-- A write to the server, after which it acts. -/
def write (bs : Bytes) (server : Server) : Except Fault Nat × Server :=
  let outcome := server.roomFor bs
  let arrived := { server.pair with toFar := server.pair.toFar ++ Pair.accepted bs outcome }
  (outcome, if arrived.ended then server else advance server.steps arrived server.requests)

/-- A read of what the server has written. -/
def read (n : Nat) (server : Server) : Except Fault Bytes × Server :=
  ((server.pair.readNear n).1, { server with pair := (server.pair.readNear n).2 })

theorem roomFor_le {bs : Bytes} {server : Server} {n : Nat}
    (h : server.roomFor bs = .ok n) : n ≤ bs.length := by
  unfold roomFor at h
  split at h
  · exact Pair.room_le h
  · split at h
    · cases h
    · cases h
      exact Nat.le_refl _

theorem not_interrupts_roomFor {bs : Bytes} {server : Server} :
    ¬ Interrupts (server.roomFor bs) := by
  unfold roomFor
  split
  · exact Pair.not_interrupts_room
  · split
    · exact Bool.false_ne_true
    · exact id

/-- The stream of whoever talks to the server. -/
def stream : Stream Server where
  read := read
  write := write
  flush server := (.ok (), server)
  shutdown server := (.ok (), { server with pair := server.pair.shutdown.2 })
  patience _ := 0
  read_le n server := Pair.length_readNear_le n server.pair
  write_le _ _ _ h := roomFor_le h
  read_interrupts n server h := absurd h (Pair.not_interrupts_readNear n server.pair)
  write_interrupts _ _ h := absurd h not_interrupts_roomFor
  flush_interrupts _ h := absurd h id

/-- The socket of whoever talks to the server. -/
def socket : Socket Server where
  stream := stream
  limitReads limit server := (checkLimit limit, server)
  limitWrites limit server := (checkLimit limit, server)

end Server

end FramedIpc
