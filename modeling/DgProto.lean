import DgProto.Library.LittleEndian
import DgProto.Library.Octets
import DgProto.Library.WordRegister
import DgProto.Library.SlidingWindow
import DgProto.Library.ThreadPool
import DgProto.Library.Calls
import DgProto.Library.Roster
import DgProto.Library.Traces
import DgProto.Wire.Errors
import DgProto.Wire.Header
import DgProto.Wire.Frame
import DgProto.Wire.Exact
import DgProto.Wire.Handshake
import DgProto.Wire.Tlv
import DgProto.Wire.TlvGrammar
import DgProto.Wire.Messages
import DgProto.Wire.Canonical
import DgProto.Crypto.Primitives
import DgProto.Crypto.Codec
import DgProto.Crypto.Sealing
import DgProto.Crypto.SizeLimits
import DgProto.Replay.Window
import DgProto.Replay.Refinement
import DgProto.Replay.Tokens
import DgProto.Session.State
import DgProto.Session.Send
import DgProto.Session.Receive
import DgProto.Session.AtomicRejection
import DgProto.Session.ReplayOracle
import DgProto.Session.Run
import DgProto.Session.SendAtomicity
import DgProto.Session.NonceUniqueness
import DgProto.Session.FrameStream
import DgProto.Session.Flight
import DgProto.Session.EpochAgreement
import DgProto.Session.Authenticity
import DgProto.Session.Grace
import DgProto.Session.RekeyCycle
import DgProto.Transport.Stream
import DgProto.Transport.Fragments
import DgProto.Transport.Lanes
import DgProto.Transport.Cancellation
import DgProto.Connection.State
import DgProto.Connection.Exec
import DgProto.Connection.Tokens
import DgProto.Connection.Facts
import DgProto.Connection.Lifecycle
import DgProto.Connection.Closing
import DgProto.Connection.Writer
import DgProto.Connection.Completion
import DgProto.Connection.Delivery
import DgProto.Connection.Loops
import DgProto.Connection.Dispatch
import DgProto.Connection.Keepalive
import DgProto.Connection.WriteCall
import DgProto.Handshake.Noise
import DgProto.Handshake.StateMachine
import DgProto.Handshake.Establish
import DgProto.Handshake.Agreement
import DgProto.Connection.Settings
import DgProto.Server.State
import DgProto.Server.Exec
import DgProto.Server.Accounts
import DgProto.Server.Runtimes
import DgProto.Server.Ownership
import DgProto.Server.Slots
import DgProto.Server.Disconnect
import DgProto.Peers.System
import DgProto.Peers.InOrder
import DgProto.Peers.Adversary
import DgProto.Library.LockOrder
import DgProto.Connection.Holders
import DgProto.Connection.Teardown
import DgProto.Server.Attendance
import DgProto.Server.Hooks
import DgProto.Server.Teardown
import DgProto.Client.Dial
import DgProto.Client.Stages
import DgProto.Client.Outcome
import DgProto.Server.Identity
import DgProto.Peers.Established
import DgProto.Library.TwoPhase
import DgProto.Session.Methods
import DgProto.Session.Linearizable
