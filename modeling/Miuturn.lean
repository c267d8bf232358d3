import Miuturn.RustStd.Basic
import Miuturn.RustStd.Utf8
import Miuturn.RustStd.HashMap
import Miuturn.RustStd.Net
import Miuturn.RustStd.Bitmap
import Miuturn.RustStd.Str
import Miuturn.Message
import Miuturn.Wire
import Miuturn.MessageProofs
import Miuturn.Framing
import Miuturn.PortAllocator
import Miuturn.PortSearch
import Miuturn.PortRanges
import Miuturn.Trace
import Miuturn.Dialogue
import Miuturn.StableSort
import Miuturn.WorkerPool
import Miuturn.TokenBucket
import Miuturn.LockedSink
import Miuturn.Sweep
import Miuturn.ConcurrentPorts
import Miuturn.PortProgress
import Miuturn.UdpWorkers
import Miuturn.Auth
import Miuturn.Bandwidth
import Miuturn.RateLimiter
import Miuturn.BandwidthRuns
import Miuturn.ConcurrentLimiter
import Miuturn.Allocation
import Miuturn.AllocationProofs
import Miuturn.RelayTask
import Miuturn.Stream
import Miuturn.Server
import Miuturn.ServerAuth
import Miuturn.ServerSteps
import Miuturn.System
import Miuturn.Acl
import Miuturn.AclReading
import Miuturn.Consistency
import Miuturn.Creation
import Miuturn.Origin
import Miuturn.Relay
import Miuturn.AuthRuns
import Miuturn.Login
import Miuturn.Expiry
import Miuturn.BulkExpiry
import Miuturn.Lifetimes
import Miuturn.Frames
import Miuturn.AnyRange
import Miuturn.AttributeLoops
import Miuturn.TurnDisabled
import Miuturn.Answers
import Miuturn.ClassicStun
import Miuturn.Transports
import Miuturn.AnswerFormat
import Miuturn.Independence
import Miuturn.Channels
import Miuturn.Permissions
import Miuturn.ChannelFrames
import Miuturn.ExpiredUse
import Miuturn.Sweeps
import Miuturn.Connections
import Miuturn.StreamWriters
import Miuturn.Traffic
import Miuturn.Persistence
import Miuturn.TurnCli
import Miuturn.TurnCliCodec
import Miuturn.Conversation
import Miuturn.Interop
import Miuturn.InteropRelay
import Miuturn.ChannelTunnel
import Miuturn.Config
import Miuturn.UserLimits
import Miuturn.Admin
import Miuturn.AdminUpdates
import Miuturn.JavaScript
import Miuturn.Console
import Miuturn.Sessions
import Miuturn.RestCredentials
import Miuturn.Json
import Miuturn.JsonSearch
import Miuturn.OAuth
import Miuturn.TokenReading
import Miuturn.Sds
import Miuturn.CertificateCache
import Miuturn.SdsWatch
import Miuturn.SavedConfig
import Miuturn.Interleaving
import Miuturn.InterleavingSteps
import Miuturn.Quota
import Miuturn.StaleBindings
import Miuturn.Coverage
