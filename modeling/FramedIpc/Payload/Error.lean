/-!
# Errors of Payload Formats

Why a value did not become a payload, or a payload did not become a value. An
error names the format and the direction. For JSON it also names what kind of
mistake the text has, since a text that ends too early, a text that is no
JSON and a text of the wrong shape call for different remedies.

What exactly is wrong is not kept; the messages say `<detail>` in its place.

## Main definitions

* `Payload.Category`: What kind of mistake a JSON text has.
* `Payload.Error`: Why a format refused.
* `Payload.Error.message`: The text shown for it.
-/

namespace FramedIpc.Payload

/-- What kind of mistake a JSON text has. -/
inductive Category where
  /-- The text ends inside a value. -/
  | eof
  /-- The text is no JSON. -/
  | malformed
  /-- The text is JSON, but not of the shape that is wanted. -/
  | data
  deriving DecidableEq, Repr

/-- Why a format refused. -/
inductive Error where
  | json (category : Category)
  | bincode
  | messagePackEncode
  | messagePackDecode
  | cborEncode
  | cborDecode
  deriving DecidableEq, Repr

/-- What stands for the particulars of an error. -/
def detail : String := "<detail>"

/-- The text shown for an error. -/
def Error.message : Error → String
  | .json _ => "json: " ++ detail
  | .bincode => "bincode: " ++ detail
  | .messagePackEncode => "msgpack encode: " ++ detail
  | .messagePackDecode => "msgpack decode: " ++ detail
  | .cborEncode => "cbor encode: " ++ detail
  | .cborDecode => "cbor decode: " ++ detail

end FramedIpc.Payload
