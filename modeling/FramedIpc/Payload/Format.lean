import FramedIpc.Payload.Bincode
import FramedIpc.Payload.Cbor
import FramedIpc.Payload.Error
import FramedIpc.Payload.Json.Printer
import FramedIpc.Payload.Json.Reader
import FramedIpc.Payload.MessagePack

/-!
# Payload Formats

The four formats side by side, and what a client needs of any of them: a
`Codec` turns requests into payloads and payloads into responses, and either
may be refused. Clients know nothing else of formats, so any other pair of
functions will do.

The binary formats leave bytes after a value alone; JSON does not.

## Main definitions

* `Codec`: A pair of functions between values and payloads.
* `Format`: One of the four formats.
* `Format.codec`: The codec of a format for responses of a shape.
* `note`: A message that is one text under a name.
-/

namespace FramedIpc

/-- A pair of functions between values and payloads, for requests of type `ρ`
    and responses of type `τ`. -/
structure Codec (ρ τ : Type) where
  /-- What the pair is called. -/
  name : String
  encode : ρ → Except Payload.Error Bytes
  decode : Bytes → Except Payload.Error τ

namespace Payload

/-- One of the four formats. -/
inductive Format where
  | json
  | bincode
  | messagePack
  | cbor
  deriving DecidableEq, Repr

/-- A value without the bytes after it, or an error in its place. -/
def whole (error : Error) : Option (Datum × Bytes) → Except Error Datum
  | some (value, _) => .ok value
  | none => .error error

/-- Bytes, or an error in their place. -/
def orError (error : Error) : Option Bytes → Except Error Bytes
  | some bytes => .ok bytes
  | none => .error error

namespace Format

/-- What a format is called. -/
def name : Format → String
  | json => "json"
  | bincode => "bincode"
  | messagePack => "msgpack"
  | cbor => "cbor"

/-- The payload of a value. -/
def encode (format : Format) (value : Datum) : Except Error Bytes :=
  match format with
  | json => (Json.encode value).mapError .json
  | bincode => orError .bincode (Bincode.encode value)
  | messagePack => orError .messagePackEncode (MessagePack.encode value)
  | cbor => orError .cborEncode (Cbor.encode value)

/-- The value of a shape in a payload. -/
def decode (format : Format) (shape : Shape) (payload : Bytes) : Except Error Datum :=
  match format with
  | json => (Json.decode shape payload).mapError .json
  | bincode => whole .bincode (Bincode.decode shape payload)
  | messagePack => whole .messagePackDecode (MessagePack.decode shape payload)
  | cbor => whole .cborDecode (Cbor.decode shape payload)

/-- The codec of a format, for responses of a shape. -/
def codec (format : Format) (response : Shape) : Codec Datum Datum where
  name := format.name
  encode := format.encode
  decode := format.decode response

end Format

/-- A message that is one text under a name. -/
def note (field text : String) : Datum :=
  .record [(field, .text text)]

/-- The shape of messages that are one text under a name. -/
def noteShape (field : String) : Shape :=
  .record [(field, .text)]

end Payload

end FramedIpc
