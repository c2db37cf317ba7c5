import FramedIpc.Text.Utf8
import FramedIpc.Text.Quoted

/-!
# Errors of Names and Addresses

Why a name is no channel name, or a path no socket address.

## Main definitions

* `Address.Reason`: What is wrong with a name.
* `Address.Error`: Why there is no address.
* `Address.Error.message`: The text shown for it.
-/

namespace FramedIpc.Address

/-- The bytes that a socket address has for its path, the closing NUL
    included. -/
def pathCapacity : Nat := 108

/-- What is wrong with a name. -/
inductive Reason where
  | empty
  | separator
  | nul
  deriving DecidableEq, Repr

/-- The text of a reason. -/
def Reason.message : Reason → String
  | .empty => "name must not be empty"
  | .separator => "name must not contain path separators"
  | .nul => "name must not contain NUL bytes"

/-- Why there is no address. -/
inductive Error where
  /-- The text is no channel name. -/
  | invalidName (name : String) (reason : Reason)
  /-- The path takes more bytes than there are, its closing NUL included. -/
  | pathTooLong (path : Bytes) (size max : Nat)
  deriving DecidableEq, Repr

/-- The text shown for an error. -/
def Error.message : Error → String
  | .invalidName name reason =>
    "invalid channel name " ++ Text.quoted name ++ ": " ++ reason.message
  | .pathTooLong path size max =>
    "socket path too long (" ++ toString size ++ " bytes, max " ++ toString max ++ "): "
      ++ Text.ofUtf8Lossy path

end FramedIpc.Address
