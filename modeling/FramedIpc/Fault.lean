/-!
# Faults of the System

What goes wrong in a call on a stream or a socket. A fault is known by its
kind, which is all that decisions look at, and by the text shown to a person,
which depends on where the fault came from: the system's own number, a bare
kind, or a text that came with it.

## Main definitions

* `Fault.Kind`: What sort of thing went wrong.
* `Fault`: A fault, as it was reported.
* `Fault.kind`: Its kind.
* `Fault.message`: Its text.
-/

namespace FramedIpc

namespace Fault

/-- What sort of thing went wrong. -/
inductive Kind where
  | notFound
  | permissionDenied
  | connectionRefused
  | connectionReset
  | connectionAborted
  | notConnected
  | addressInUse
  | addressNotAvailable
  | brokenPipe
  | alreadyExists
  | wouldBlock
  | notADirectory
  | invalidInput
  | invalidData
  | timedOut
  | writeZero
  | interrupted
  | unsupported
  | unexpectedEof
  | outOfMemory
  | tooManyOpenFiles
  | inputOutput
  | other
  | uncategorized
  deriving DecidableEq, Repr, Inhabited

/-- What a bare kind says of itself. -/
def Kind.text : Kind → String
  | .notFound => "entity not found"
  | .permissionDenied => "permission denied"
  | .connectionRefused => "connection refused"
  | .connectionReset => "connection reset"
  | .connectionAborted => "connection aborted"
  | .notConnected => "not connected"
  | .addressInUse => "address in use"
  | .addressNotAvailable => "address not available"
  | .brokenPipe => "broken pipe"
  | .alreadyExists => "entity already exists"
  | .wouldBlock => "operation would block"
  | .notADirectory => "not a directory"
  | .invalidInput => "invalid input parameter"
  | .invalidData => "invalid data"
  | .timedOut => "timed out"
  | .writeZero => "write zero"
  | .interrupted => "operation interrupted"
  | .unsupported => "unsupported"
  | .unexpectedEof => "unexpected end of file"
  | .outOfMemory => "out of memory"
  | .tooManyOpenFiles => "too many open files"
  | .inputOutput => "input/output error"
  | .other => "other error"
  | .uncategorized => "uncategorized error"

/-- The kind and the text of one of the system's error numbers. -/
def ofNumber : Nat → Kind × String
  | 1 => (.permissionDenied, "Operation not permitted")
  | 2 => (.notFound, "No such file or directory")
  | 4 => (.interrupted, "Interrupted system call")
  | 5 => (.inputOutput, "Input/output error")
  | 9 => (.uncategorized, "Bad file descriptor")
  | 11 => (.wouldBlock, "Resource temporarily unavailable")
  | 12 => (.outOfMemory, "Cannot allocate memory")
  | 13 => (.permissionDenied, "Permission denied")
  | 17 => (.alreadyExists, "File exists")
  | 20 => (.notADirectory, "Not a directory")
  | 22 => (.invalidInput, "Invalid argument")
  | 24 => (.tooManyOpenFiles, "Too many open files")
  | 32 => (.brokenPipe, "Broken pipe")
  | 98 => (.addressInUse, "Address already in use")
  | 99 => (.addressNotAvailable, "Cannot assign requested address")
  | 103 => (.connectionAborted, "Software caused connection abort")
  | 104 => (.connectionReset, "Connection reset by peer")
  | 107 => (.notConnected, "Transport endpoint is not connected")
  | 110 => (.timedOut, "Connection timed out")
  | 111 => (.connectionRefused, "Connection refused")
  | n => (.uncategorized, "Unknown error " ++ toString n)

end Fault

/-- A fault, as it was reported. -/
inductive Fault where
  /-- A kind and nothing else. -/
  | bare (kind : Fault.Kind)
  /-- One of the system's error numbers. -/
  | numbered (number : Nat)
  /-- A kind with a text of its own. -/
  | described (kind : Fault.Kind) (text : String)
  deriving DecidableEq, Repr, Inhabited

namespace Fault

/-- The kind of a fault. -/
def kind : Fault → Kind
  | .bare kind => kind
  | .numbered number => (ofNumber number).1
  | .described kind _ => kind

/-- The text of a fault. -/
def message : Fault → String
  | .bare kind => kind.text
  | .numbered number => (ofNumber number).2 ++ " (os error " ++ toString number ++ ")"
  | .described _ text => text

/-- Nothing at the path. -/
def noSuchFile : Fault := .numbered 2

/-- A step of the path is no directory. -/
def notADirectory : Fault := .numbered 20

/-- A socket or file that nobody listens on. -/
def refused : Fault := .numbered 111

/-- A call that waited as long as it may. -/
def wouldBlock : Fault := .numbered 11

/-- A write that nobody can read any more. -/
def brokenPipe : Fault := .numbered 32

/-- The other end went away with data unread. -/
def reset : Fault := .numbered 104

/-- A timeout of no time at all. -/
def zeroTimeout : Fault := .described .invalidInput "cannot set a 0 duration timeout"

/-- A path that no call of the system can take. -/
def nulInPath : Fault :=
  .described .invalidInput "paths must not contain interior null bytes"

/-- Whether the call was only interrupted and can be made again. -/
def isInterrupted (fault : Fault) : Bool :=
  fault.kind = .interrupted

end Fault

end FramedIpc
