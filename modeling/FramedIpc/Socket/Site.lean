import FramedIpc.Dial.Timeline
import FramedIpc.Socket.Server

/-!
# Sites

A site is a path in a file system with something lying at it, maybe only from
some moment on. It tells what an attempt to connect comes to, there and
elsewhere: a socket that somebody listens on accepts, everything else that
exists refuses, and what is not there is not found.

`Site.host` is the host on which such a site lies. Its state is the moment,
and the server that was connected to.

## Main definitions

* `Site.Occupant`: What lies at the path.
* `Site`: A path and its occupant.
* `Site.attempt`: What an attempt to connect comes to.
* `Site.host`: The host with such a site.
-/

namespace FramedIpc

/-- What lies at the path of a site. -/
inductive Site.Occupant where
  | nothing
  /-- A file, a directory, or a socket without a listener. -/
  | unheard
  | listener
  deriving DecidableEq, Repr

/-- A path and what lies at it. -/
structure Site where
  path : Bytes
  occupant : Site.Occupant
  /-- The moment from which on the occupant is there, in nanoseconds. -/
  since : Nat
  deriving DecidableEq, Repr

namespace Site

/-- The path that is a device and no directory. -/
def device : Bytes := Text.utf8 "/dev/null/"

/-- An address that no socket has. -/
def noAddress : Fault := .numbered 22

/-- A path that does not fit a socket's address. -/
def pathOverlong : Fault := .described .invalidInput "path must be shorter than SUN_LEN"

/-- What lies at a path at a moment. -/
def occupantOf (site : Site) (path : Bytes) (moment : Nat) : Occupant :=
  if path = site.path && site.since ≤ moment then site.occupant else .nothing

/-- What an attempt to connect to an endpoint comes to. -/
def attempt (site : Site) (endpoint : Endpoint) (moment : Nat) : Except Fault Unit :=
  -- What is wrong with the address itself is found before anything is looked up.
  if endpoint.address.contains 0 then .error Fault.nulInPath
  else if Address.pathCapacity ≤ endpoint.address.length then .error pathOverlong
  else if endpoint.address.isEmpty then .error noAddress
  else if device.isPrefixOf endpoint.address then .error Fault.notADirectory
  else
    match site.occupantOf endpoint.address moment with
    | .nothing => .error Fault.noSuchFile
    | .unheard => .error Fault.refused
    | .listener => .ok ()

/-- The attempts to connect to an endpoint, and when they are called off. -/
def timeline (site : Site) (endpoint : Endpoint) (cancelAt : Option Nat) : Dial.Timeline Unit :=
  ⟨site.attempt endpoint, cancelAt⟩

/-- The state of a host with a site. -/
structure State where
  /-- Nanoseconds from the start. -/
  moment : Nat
  /-- Whether dials are called off. -/
  cancelled : Bool
  /-- The server that listens, or was connected to. -/
  server : Server
  deriving DecidableEq, Repr

/-- How long an attempt takes, in nanoseconds. -/
def attemptTime : Nat := 100000

/-- One attempt. -/
def connect (site : Site) (endpoint : Endpoint) (s : State) : Except Fault Unit × State :=
  (site.attempt endpoint s.moment, { s with moment := s.moment + attemptTime })

/-- A part of the state that a call changes, put back into the state. -/
def onServer {α : Type} (call : Server → α × Server) (s : State) : α × State :=
  ((call s.server).1, { s with server := (call s.server).2 })

/-- The stream that leads to the server. -/
def stream : Stream State where
  read n := onServer (Server.stream.read n)
  write bs := onServer (Server.stream.write bs)
  flush := onServer Server.stream.flush
  shutdown := onServer Server.stream.shutdown
  patience s := Server.stream.patience s.server
  read_le n s := Server.stream.read_le n s.server
  write_le bs s := Server.stream.write_le bs s.server
  read_interrupts n s := Server.stream.read_interrupts n s.server
  write_interrupts bs s := Server.stream.write_interrupts bs s.server
  flush_interrupts s := Server.stream.flush_interrupts s.server

/-- The host with a site. -/
def host (site : Site) : Host State where
  world :=
    { connect := site.connect
      now := fun s => s.moment
      sleep := fun pause s => { s with moment := s.moment + pause.toNanos }
      cancelled := State.cancelled }
  socket :=
    { stream := stream
      limitReads := fun limit s => (checkLimit limit, s)
      limitWrites := fun limit s => (checkLimit limit, s) }

end Site

end FramedIpc
