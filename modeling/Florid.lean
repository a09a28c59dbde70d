import Florid.Binary32
import Florid.Transition
import Florid.Wirelink.Types
import Florid.Wirelink.Regions
import Florid.Wirelink.Machine
import Florid.Wirelink.Moves
import Florid.Wirelink.SlotInvariant
import Florid.Wirelink.RequestIds
import Florid.Wirelink.RequestLife
import Florid.Wirelink.QueueBudget
import Florid.Wirelink.Lease
import Florid.Wirelink.Validation
import Florid.Wirelink.Provenance
import Florid.Wirelink.Commands
import Florid.Wirelink.CommandGate
import Florid.Arm.Connection
import Florid.Wirelink.LeaseExpiry
import Florid.Wirelink.UpgradeGate
import Florid.Wirelink.Release
import Florid.Arm.Operations
import Florid.Arm.SlotOwnership
import Florid.DrainGate
import Florid.Arm.Session
import Florid.Arm.SessionMoves
import Florid.Arm.SessionInvariant
import Florid.Arm.SessionIsolation
import Florid.Upgrade.Client
import Florid.Upgrade.Session
import Florid.Upgrade.History
import Florid.Upgrade.InfoQuery
import Florid.Upgrade.InfoOwnership
import Florid.Upgrade.InfoAttribution
import Florid.Upgrade.Verification
import Florid.Upgrade.Install
import Florid.Upgrade.Upload
import Florid.Upgrade.UpgradeClient
import Florid.Upgrade.ClientMoves
import Florid.Upgrade.Admission
import Florid.Upgrade.RebootPhases
import Florid.Upgrade.RebootContract
import Florid.Upgrade.UploadLife
import Florid.Cubic
import Florid.Mpc.Trajectory
import Florid.Mpc.Within
import Florid.Mpc.Session
import Florid.Mpc.Output
import Florid.Mpc.Reference
import Florid.Arm.ControlGeneration
import Florid.Latest
import Florid.Arm.Feedback
import Florid.Arm.FeedbackOrder
import Florid.Arm.FeedbackForward
import Florid.Window
import Florid.Arm.Latency
import Florid.Wirelink.Settings
import Florid.Arm.SettingsCache
import Florid.Arm.MotorRegister
import Florid.Periodic
import Florid.Mpc.Schedule
import Florid.FloatValue
import Florid.Mpc.CartesianSolver
import Florid.Transport.ReceiveCallbackGate
import Florid.CoalescedWake
import Florid.Arm.ModeCache
import Florid.Arm.Loops
import Florid.Arm.UploadAllowed
import Florid.Arm.WakeUp
import Florid.Numeral
import Florid.Discovery.Usb
import Florid.Discovery.UsbRoundTrip
import Florid.Discovery.UsbGrammar
import Florid.Discovery.UdpUri
import Florid.Decimal
import Florid.Words
import Florid.Xml
import Florid.GravityTuner.Model
import Florid.GravityTuner.Save
import Florid.GravityTuner.SaveTwice
import Florid.GravityTuner.RoundTrip
import Florid.Mpc.Lifecycle
import Florid.Mpc.LifecycleMoves
import Florid.Mpc.StopOnce
import Florid.Base128
import Florid.Zigzag
import Florid.BigEndian
import Florid.Bisect
import Florid.Codec.Varint
import Florid.Codec.Utf8
import Florid.Codec.Schema
import Florid.Codec.Encode
import Florid.Codec.Decode
import Florid.Codec.Records
import Florid.Codec.RoundTrip
import Florid.Codec.Fingerprint
import Florid.Codec.Protocol
import Florid.Codec.Owned
import Florid.Rpc.Header
import Florid.Rpc.Calls
import Florid.Discovery.Devices
import Florid.Discovery.Connect
import Florid.Arm.Construct
import Florid.Codec.Commands
import Florid.Wirelink.Deadline
import Florid.Rpc.Requests
import Florid.Arena
import Florid.Rpc.Storage
import Florid.Rpc.RuntimeInit
import Florid.GravityTuner.Controller
