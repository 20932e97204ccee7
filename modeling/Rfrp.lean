import Rfrp.Lib.Transition
import Rfrp.Lib.Fifo
import Rfrp.Lib.Slots
import Rfrp.Lib.DashMap
import Rfrp.Lib.Naming
import Rfrp.Lib.Result
import Rfrp.Lib.Block
import Rfrp.Lib.Aead
import Rfrp.Lib.Streaming
import Rfrp.Lib.Framing
import Rfrp.Lib.MessagePack
import Rfrp.Lib.Potential
import Rfrp.Config.BaseTypes
import Rfrp.Config.ConfigParser
import Rfrp.Proto.FrameTypes
import Rfrp.Proto.Coalesce
import Rfrp.Proto.ConnTasks
import Rfrp.Proto.ConnLaws
import Rfrp.Proto.Endpoint
import Rfrp.Proto.EndpointLaws
import Rfrp.Proto.Downstream
import Rfrp.Proto.Dispatch
import Rfrp.Proto.Quiescence
import Rfrp.Proto.Lifetimes
import Rfrp.Proto.Backpressure
import Rfrp.Proto.Filling
import Rfrp.Proto.Flushing
import Rfrp.Proto.FrameHandle
import Rfrp.Proto.Crypto
import Rfrp.Proto.Nonces
import Rfrp.Proto.CipherPaths
import Rfrp.Proto.Handshake
import Rfrp.Proto.FrameCodec
import Rfrp.Proto.FramedRead
import Rfrp.Proto.TunnelEnd
import Rfrp.Proto.Decompression
import Rfrp.Proto.Channel
import Rfrp.Proto.Transit
import Rfrp.Proto.RmpSerde
import Rfrp.Proto.Work
import Rfrp.Server.RunProxy
import Rfrp.Server.Steps
import Rfrp.Server.Registration
import Rfrp.Server.Connections
import Rfrp.Server.Answers
import Rfrp.Server.Routing
import Rfrp.Server.Dispatch
import Rfrp.Server.Quiescence
import Rfrp.Server.RoutingTable
import Rfrp.Server.ConnectionCap
import Rfrp.Server.Delivery
import Rfrp.Server.Progress
import Rfrp.Server.Admission
import Rfrp.Server.FailedRegistration
import Rfrp.Server.Teardown
import Rfrp.Server.ByteStream
import Rfrp.Server.LengthDelimited
import Rfrp.Server.Work
import Rfrp.Host.Basic
import Rfrp.Host.Capacity
import Rfrp.Host.Ports
import Rfrp.Client.RunProxy
import Rfrp.Client.Steps
import Rfrp.Client.Connections
import Rfrp.Client.Registration
import Rfrp.Client.Forwarding
import Rfrp.Client.Dispatch
import Rfrp.Client.Quiescence
import Rfrp.Client.Cleanup
import Rfrp.Client.Teardown
import Rfrp.Client.Progress
import Rfrp.Client.Reconnect
import Rfrp.Client.Backoff
import Rfrp.Client.Sessions
import Rfrp.Client.Hosting
import Rfrp.Client.Calls
import Rfrp.Client.Work
import Rfrp.Session.Basic
import Rfrp.Session.Stages
import Rfrp.Session.Wires
import Rfrp.Session.Agreement
import Rfrp.Session.Isolation
import Rfrp.Session.Streams
import Rfrp.Session.Quiescence
import Rfrp.Session.Closing
import Rfrp.Session.Replies
import Rfrp.Session.Registering
import Rfrp.Session.Validation
import Rfrp.Session.Deadlock
import Rfrp.Session.Flushing
import Rfrp.Session.Stalls
import Rfrp.Session.Caches
import Rfrp.Session.Bytes
import Rfrp.Session.Rewiring
import Rfrp.Session.Vocabulary
import Rfrp.Session.ByteRefinement
import Rfrp.Session.Sizes
import Rfrp.Session.ByteProgress
import Rfrp.Session.Work
import Rfrp.Session.Draining
import Rfrp.Session.Keyless
import Rfrp.Session.Opening
import Rfrp.Session.Connecting
import Rfrp.Session.Heartbeats
import Rfrp.Session.Keepalive
import Rfrp.Deployment.Basic
import Rfrp.Deployment.Sessions
import Rfrp.Deployment.Isolation
