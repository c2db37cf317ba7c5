import FramedIpc.Address.Endpoint
import FramedIpc.Command.Invocation
import FramedIpc.Payload.Json.Printer
import FramedIpc.Text.Table
import FramedIpc.Time.Span

/-!
# Shown Results

How results look on the standard output. JSON is for programs: one line, and
nothing but the result. Tables and the pretty form are for people.

## Main definitions

* `shownEndpoint`: A name's endpoint.
* `shownResponse`: A response.
* `shownVersion`: The version of the program.
-/

namespace FramedIpc.Command

open Payload

/-- A value as JSON on one line. -/
def jsonLine (value : Datum) : String :=
  match Json.printed .line value with
  | .ok text => String.ofList text
  | .error _ => "\x7b\x7d"

/-- A value as JSON on several lines. -/
def jsonLines (value : Datum) : String :=
  match Json.printed (.indented 0) value with
  | .ok text => String.ofList text
  | .error _ => "null"

/-- A result on lines of its own. -/
def line (text : String) : String := text ++ "\n"

/-- The endpoint of a name. -/
def shownEndpoint (display : Display) (name : String) (endpoint : Endpoint) : String :=
  match display with
  | .json =>
    line (jsonLine (.record
      [("name", .text name), ("kind", .text endpoint.kind.text), ("address", .text endpoint.text)]))
  | .table =>
    line (Text.Table.text
      ⟨["NAME", "KIND", "ADDRESS"], [[name, endpoint.kind.text, endpoint.text]]⟩)
  | .pretty => line endpoint.text

/-- A response, with the endpoint that it came from and the time it took. -/
def shownResponse (display : Display) (endpoint : Endpoint) (response : Datum) (elapsed : Span) :
    String :=
  match display with
  | .json => line (jsonLine response)
  | .table =>
    line (Text.Table.text
      ⟨["ENDPOINT", "ELAPSED", "RESPONSE"],
        [[endpoint.text, toString elapsed.millis ++ "ms", jsonLine response]]⟩)
  | .pretty => line (jsonLines response)

/-- The name of the program. -/
def programName : String := "localchan"

/-- The version of the program. -/
def programVersion : String := "0.1.0"

/-- What is known of the program. -/
def provenance : List (String × String) :=
  [("name", programName), ("version", programVersion),
    ("build_target", "x86_64-unknown-linux-gnu"), ("target_os", "linux"),
    ("target_arch", "x86_64"), ("transport", Endpoint.Kind.text .unixSocket),
    ("features", "async=true, bincode=true, msgpack=true, cbor=true, cli=true")]

/-- The version of the program, or all that is known of it. -/
def shownVersion (extended : Bool) : String :=
  if extended then String.join (provenance.map fun fact => line (fact.1 ++ ": " ++ fact.2))
  else line (programName ++ " " ++ programVersion)

end FramedIpc.Command
