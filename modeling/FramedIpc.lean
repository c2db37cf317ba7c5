import FramedIpc.Address.Endpoint
import FramedIpc.Address.Error
import FramedIpc.Address.Name
import FramedIpc.Client.Blocking
import FramedIpc.Client.Config
import FramedIpc.Client.Connect
import FramedIpc.Client.Error
import FramedIpc.Client.Polled
import FramedIpc.Command.Duration
import FramedIpc.Command.Exit
import FramedIpc.Command.Grammar
import FramedIpc.Command.Invocation
import FramedIpc.Command.Run
import FramedIpc.Command.Send
import FramedIpc.Command.Shown
import FramedIpc.Dial.Dialer
import FramedIpc.Dial.Error
import FramedIpc.Dial.Policy
import FramedIpc.Dial.Script
import FramedIpc.Dial.Timeline
import FramedIpc.Fault
import FramedIpc.Frame.Buffer
import FramedIpc.Frame.Error
import FramedIpc.Frame.Exchange
import FramedIpc.Frame.Header
import FramedIpc.Frame.Transport
import FramedIpc.Main
import FramedIpc.Payload.Binary
import FramedIpc.Payload.Bincode
import FramedIpc.Payload.Cbor
import FramedIpc.Payload.Datum
import FramedIpc.Payload.Error
import FramedIpc.Payload.Fields
import FramedIpc.Payload.Format
import FramedIpc.Payload.Json.Number
import FramedIpc.Payload.Json.Printer
import FramedIpc.Payload.Json.Reader
import FramedIpc.Payload.Json.Text
import FramedIpc.Payload.Json.Token
import FramedIpc.Payload.MessagePack
import FramedIpc.Proofs.Client.Abandoned
import FramedIpc.Proofs.Client.Account
import FramedIpc.Proofs.Client.Finality
import FramedIpc.Proofs.Client.Link
import FramedIpc.Proofs.Client.Lockstep
import FramedIpc.Proofs.Client.Openness
import FramedIpc.Proofs.Client.Pairing
import FramedIpc.Proofs.Client.Pending
import FramedIpc.Proofs.Client.Recovery
import FramedIpc.Proofs.Client.Run
import FramedIpc.Proofs.Client.Talk
import FramedIpc.Proofs.Command.Fate
import FramedIpc.Proofs.Command.Refusal
import FramedIpc.Proofs.Command.Told
import FramedIpc.Proofs.Command.View
import FramedIpc.Proofs.Dial.Cause
import FramedIpc.Proofs.Dial.Course
import FramedIpc.Proofs.Dial.Deadline
import FramedIpc.Proofs.Dial.Diary
import FramedIpc.Proofs.Dial.Record
import FramedIpc.Proofs.Dial.Timeline
import FramedIpc.Proofs.Dial.Verdict
import FramedIpc.Proofs.Frame.Agreement
import FramedIpc.Proofs.Frame.Arrival
import FramedIpc.Proofs.Frame.Cut
import FramedIpc.Proofs.Frame.Exchange
import FramedIpc.Proofs.Frame.Independence
import FramedIpc.Proofs.Frame.Pieces
import FramedIpc.Proofs.Frame.Transport
import FramedIpc.Proofs.Frame.Wire
import FramedIpc.Proofs.Payload.Binary
import FramedIpc.Proofs.Payload.Bincode
import FramedIpc.Proofs.Payload.Cbor
import FramedIpc.Proofs.Payload.Json
import FramedIpc.Proofs.Payload.MessagePack
import FramedIpc.Proofs.Payload.Notes
import FramedIpc.Proofs.Payload.Printing
import FramedIpc.Proofs.Stream.Delivery
import FramedIpc.Proofs.Stream.Filling
import FramedIpc.Proofs.Stream.Tracked
import FramedIpc.Proofs.Stream.Transcript
import FramedIpc.Proofs.Stream.Twins
import FramedIpc.Proofs.Stream.View
import FramedIpc.Proofs.Stream.Waiting
import FramedIpc.Proofs.Text.Utf8
import FramedIpc.Real.Layout
import FramedIpc.Real.Shortest
import FramedIpc.Socket.Host
import FramedIpc.Socket.Pair
import FramedIpc.Socket.Server
import FramedIpc.Socket.Site
import FramedIpc.Stream.Basic
import FramedIpc.Stream.Ledger
import FramedIpc.Stream.Polled
import FramedIpc.Stream.PolledScript
import FramedIpc.Stream.Script
import FramedIpc.Stream.Whole
import FramedIpc.Text.Classes
import FramedIpc.Text.Columns
import FramedIpc.Text.Quoted
import FramedIpc.Text.Table
import FramedIpc.Text.Trimmed
import FramedIpc.Text.Utf8
import FramedIpc.Time.Span
import FramedIpc.Proofs.Frame.Departure
import FramedIpc.Proofs.Dial.Laxity
import FramedIpc.Proofs.Dial.Bounds
import FramedIpc.Proofs.Dial.Alike
import FramedIpc.Proofs.Dial.Call
import FramedIpc.Proofs.Dial.Again
import FramedIpc.Proofs.Dial.Overrun
import FramedIpc.Proofs.Frame.Front
import FramedIpc.Proofs.Frame.Remainder
import FramedIpc.Proofs.Frame.Outbound
import FramedIpc.Proofs.Address.Chain
import FramedIpc.Proofs.Address.Place
import FramedIpc.Proofs.Frame.Header
import FramedIpc.Proofs.Command.Duration
import FramedIpc.Proofs.Command.Settings
import FramedIpc.Proofs.Payload.CutShort
