import FramedIpc.Dial.Policy
import FramedIpc.Frame.Exchange

/-!
# Settings of Clients

How a client dials and how it frames what it sends.

## Main definitions

* `Client.Config`: A retry policy and the settings of frames.
-/

namespace FramedIpc.Client

/-- How a client dials, and how it frames what it sends. -/
structure Config where
  retry : Policy
  frame : Frame.Config
  deriving DecidableEq, Repr

namespace Config

/-- The standard policy and the standard frames. -/
def standard : Config := ⟨.standard, .standard⟩

/-- The same settings with another policy. -/
def withRetry (config : Config) (retry : Policy) : Config :=
  { config with retry := retry }

/-- The same settings with other frames. -/
def withFrame (config : Config) (frame : Frame.Config) : Config :=
  { config with frame := frame }

end Config

end FramedIpc.Client
