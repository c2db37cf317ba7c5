import FramedIpc.Address.Name

/-!
# Endpoints

Where a channel is to be found: a socket file in the directory for temporary
files, or a pipe. A socket's path has to leave room for the NUL that closes
it in the system's address structure, and how long it is counts in bytes of
UTF-8 and not in characters.

## Main definitions

* `Endpoint`: An address and what sort of thing lies there.
* `Endpoint.ofSocketPath`: The endpoint of a path.
* `Endpoint.unixSocket`: The socket of a name.
* `Endpoint.namedPipe`: The pipe of a name.
-/

namespace FramedIpc

namespace Endpoint

/-- What sort of thing lies at an endpoint. -/
inductive Kind where
  | unixSocket
  | namedPipe
  deriving DecidableEq, Repr

/-- How a kind is written in output. -/
def Kind.text : Kind → String
  | .unixSocket => "unix-domain-socket"
  | .namedPipe => "named-pipe"

end Endpoint

/-- Where a channel is to be found. -/
structure Endpoint where
  /-- The bytes of the path. -/
  address : Bytes
  kind : Endpoint.Kind
  deriving DecidableEq, Repr

namespace Endpoint

/-- The path as it is shown to a person. -/
def text (endpoint : Endpoint) : String :=
  Text.ofUtf8Lossy endpoint.address

/-- The endpoint of a socket's path, which has to fit with its closing NUL. -/
def ofSocketPath (path : Bytes) : Except Address.Error Endpoint :=
  if path.length < Address.pathCapacity then .ok ⟨path, .unixSocket⟩
  else .error (.pathTooLong path path.length Address.pathCapacity)

/-- The path of a name's socket. -/
def socketPath (name : Name) : Bytes :=
  Text.utf8 "/tmp/" ++ (Text.utf8 name.text ++ Text.utf8 ".sock")

/-- The socket of a name. -/
def unixSocket (name : Name) : Except Address.Error Endpoint :=
  ofSocketPath (socketPath name)

/-- The pipe of a name. A pipe's name has no limit to keep to here. -/
def namedPipe (name : Name) : Endpoint :=
  ⟨Text.utf8 "\\\\.\\pipe\\" ++ Text.utf8 name.text, .namedPipe⟩

/-- The endpoint of a name on a system that has sockets. -/
def resolve (name : Name) : Except Address.Error Endpoint :=
  unixSocket name

end Endpoint

end FramedIpc
