import FramedIpc.Dial.Dialer
import FramedIpc.Frame.Exchange

/-!
# Sockets and Hosts

A socket is a stream whose reads and writes can be given a limit of time. A
host is a system on which endpoints are dialled: what a dial touches, and the
socket that it opens. The socket is part of the host's state from then on.

A limit of no time at all is refused by every host, so the settings of frames
can be put on a socket only if their limits are positive.

## Main definitions

* `Socket`: A stream with limits of time.
* `Socket.configure`: Put the settings of frames on a socket.
* `Host`: A system on which endpoints are dialled.
* `Host.socketless`: A host that has no sockets.
-/

namespace FramedIpc

/-- A stream whose reads and writes can be given a limit of time, or none. -/
structure Socket (σ : Type) where
  stream : Stream σ
  limitReads : Option Span → σ → Except Fault Unit × σ
  limitWrites : Option Span → σ → Except Fault Unit × σ

/-- Whether a limit is one that sockets take. -/
def checkLimit : Option Span → Except Fault Unit
  | none => .ok ()
  | some limit => if limit = Span.zero then .error Fault.zeroTimeout else .ok ()

/-- Put the limits of time for frames on a socket, first the one for reads. -/
def Socket.configure {σ : Type} (socket : Socket σ) (config : Frame.Config) (s : σ) :
    Except Fault Unit × σ :=
  match socket.limitReads config.readTimeout s with
  | (.ok (), s') => socket.limitWrites config.writeTimeout s'
  | (.error fault, s') => (.error fault, s')

/-- A system on which endpoints are dialled, whose state is a `σ`. -/
structure Host (σ : Type) where
  world : Dial.World σ Unit
  /-- The socket that the last successful attempt opened. -/
  socket : Socket σ

/-- A stream that takes and gives nothing. -/
def Stream.unsupported : Stream Unit where
  read _ _ := (.error (.bare .unsupported), ())
  write _ _ := (.error (.bare .unsupported), ())
  flush _ := (.error (.bare .unsupported), ())
  shutdown _ := (.error (.bare .unsupported), ())
  patience _ := 0
  read_le _ _ _ h := nomatch h
  write_le _ _ _ h := nomatch h
  read_interrupts _ _ h := nomatch h
  write_interrupts _ _ h := nomatch h
  flush_interrupts _ h := nomatch h

/-- A host that has no sockets. Every attempt to connect fails for good. -/
def Host.socketless : Host Unit where
  world :=
    { connect := fun _ _ => (.error (.bare .unsupported), ())
      now := fun _ => 0
      sleep := fun _ _ => ()
      cancelled := fun _ => false }
  socket :=
    { stream := Stream.unsupported
      limitReads := fun limit _ => (checkLimit limit, ())
      limitWrites := fun limit _ => (checkLimit limit, ()) }

end FramedIpc
