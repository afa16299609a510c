import Multimaster.Basis.Bytes
import Multimaster.Basis.Hex
import Multimaster.Basis.Dict
import Multimaster.Basis.Reorder
import Multimaster.Basis.Loop
import Multimaster.Basis.Flight
import Multimaster.Basis.Diffusion
import Multimaster.Basis.Search
import Multimaster.Basis.Newest
import Multimaster.Basis.Renewal
import Multimaster.Basis.Recent
import Multimaster.Basis.Toggle
import Multimaster.Basis.History
import Multimaster.Basis.Leads
import Multimaster.EventLoop.TimerQueue
import Multimaster.EventLoop.TimerSound
import Multimaster.EventLoop.Timers
import Multimaster.Crypto.Suite
import Multimaster.Crypto.Transparent
import Multimaster.Wire.Frames
import Multimaster.Wire.Decode
import Multimaster.Wire.RoundTrip
import Multimaster.Wire.Stability
import Multimaster.Wire.Layout
import Multimaster.Wire.Grammar
import Multimaster.Wire.Scan
import Multimaster.Wire.ScanAgrees
import Multimaster.Wire.Sticky
import Multimaster.Wire.Trimming
import Multimaster.Connection.State
import Multimaster.Connection.Transparent
import Multimaster.Connection.Output
import Multimaster.Connection.Admitting
import Multimaster.Connection.Heeding
import Multimaster.Connection.Agreeing
import Multimaster.Connection.Input
import Multimaster.Connection.Buffer
import Multimaster.Connection.BufferHolds
import Multimaster.Connection.BufferUses
import Multimaster.Connection.Endpoint
import Multimaster.Connection.Client
import Multimaster.Connection.Alike
import Multimaster.Connection.AlikeFrames
import Multimaster.Connection.Draining
import Multimaster.Connection.ChunkTurns
import Multimaster.Connection.ChunkPhases
import Multimaster.Connection.Chunks
import Multimaster.Connection.Batches
import Multimaster.Connection.Pulses
import Multimaster.Connection.PulseLoops
import Multimaster.Connection.PulseRuns
import Multimaster.Connection.Admission
import Multimaster.Connection.Ticks
import Multimaster.Connection.TickFrames
import Multimaster.Connection.TickLoops
import Multimaster.Connection.TickRuns
import Multimaster.Connection.Framing
import Multimaster.Connection.Backpressure
import Multimaster.Connection.Script
import Multimaster.Connection.Stages
import Multimaster.Connection.StageReading
import Multimaster.Connection.Conversing
import Multimaster.Connection.Meetings
import Multimaster.Connection.Channel
import Multimaster.Connection.Cutting
import Multimaster.Connection.Received
import Multimaster.Connection.Integrity
import Multimaster.Connection.Unread
import Multimaster.Connection.InboundTurns
import Multimaster.Connection.InboundEvents
import Multimaster.Connection.Inbound
import Multimaster.Connection.Scene
import Multimaster.Connection.Strokes
import Multimaster.Connection.StrokeFrames
import Multimaster.Connection.StrokeRuns
import Multimaster.Connection.Callbacks
import Multimaster.Connection.Interest
import Multimaster.Connection.Queueing
import Multimaster.Gossip.Router
import Multimaster.Gossip.Net
import Multimaster.Gossip.Network
import Multimaster.Gossip.Broadcast
import Multimaster.Gossip.Reach
import Multimaster.Gossip.Routed
import Multimaster.Gossip.Addressing
import Multimaster.Gossip.Traffic
import Multimaster.Gossip.Conduct
import Multimaster.Gossip.Minting
import Multimaster.Gossip.Carriage
import Multimaster.Gossip.Membership
import Multimaster.Gossip.Component
import Multimaster.Gossip.MembershipHost
import Multimaster.Gossip.Relay
import Multimaster.Gossip.MembershipNet
import Multimaster.Gossip.Tracking
import Multimaster.Gossip.Converging
import Multimaster.Gossip.Dedup
import Multimaster.Gossip.Sweeping
import Multimaster.Manager.State
import Multimaster.Manager.Closing
import Multimaster.Manager.Handshake
import Multimaster.Manager.Events
import Multimaster.Manager.LinkChanges
import Multimaster.Manager.Reentry
import Multimaster.Manager.Containment
import Multimaster.Manager.LinkSteps
import Multimaster.Manager.LinkRun
import Multimaster.Manager.LinkFrames
import Multimaster.Manager.LinkTimers
import Multimaster.Manager.LinkEvents
import Multimaster.Manager.Outcome
import Multimaster.Manager.Live
import Multimaster.Manager.Liveness
import Multimaster.Manager.Filed
import Multimaster.Manager.Records
import Multimaster.Manager.Told
import Multimaster.Manager.Discreet
import Multimaster.Manager.Introducing
import Multimaster.Manager.Truth
import Multimaster.Manager.Sweep
import Multimaster.Manager.Guards
import Multimaster.Manager.Guarding
import Multimaster.Manager.Sealing
import Multimaster.Manager.Traced
import Multimaster.Manager.Hushed
import Multimaster.Manager.Cleartext
import Multimaster.Manager.GossipSteps
import Multimaster.Manager.Learning
import Multimaster.Manager.LearningFrames
import Multimaster.Manager.LearningEvents
import Multimaster.Manager.Names
import Multimaster.Manager.Arrival
import Multimaster.Manager.Confirming
import Multimaster.Manager.Naming
import Multimaster.Manager.Discovery
import Multimaster.Manager.Segregation
import Multimaster.Manager.BookChanges
import Multimaster.Manager.BookCalls
import Multimaster.Manager.BookSteps
import Multimaster.Manager.BookFrames
import Multimaster.Manager.BookEvents
import Multimaster.Manager.Tidy
import Multimaster.Manager.Reaping
import Multimaster.Manager.Booked
import Multimaster.Manager.Dialing
import Multimaster.Manager.Known
import Multimaster.Manager.StaticBooks
import Multimaster.Manager.StaticPeers
import Multimaster.Manager.PlanSteps
import Multimaster.Manager.PlanCalls
import Multimaster.Manager.PlanLinks
import Multimaster.Manager.PlanFrames
import Multimaster.Manager.PlanTimers
import Multimaster.Manager.PlanEvents
import Multimaster.Manager.Objects
import Multimaster.Manager.Relaying
import Multimaster.Manager.Ledger
import Multimaster.Manager.Pacing
import Multimaster.Manager.Backoff
import Multimaster.Manager.Soundness
import Multimaster.Manager.Waiting
import Multimaster.Manager.Dropping
import Multimaster.Manager.Redial
import Multimaster.Manager.Fanout
import Multimaster.Manager.Stamps
import Multimaster.Manager.Enduring
import Multimaster.Manager.Checks
import Multimaster.Manager.Timeouts
import Multimaster.Manager.DeskSteps
import Multimaster.Manager.DeskFrames
import Multimaster.Manager.DeskEvents
import Multimaster.Manager.Components
import Multimaster.Manager.Delivery
import Multimaster.Manager.Farewell
import Multimaster.Manager.Depth
import Multimaster.Race.Arena
import Multimaster.Race.Spared
import Multimaster.Race.Nodes
import Multimaster.Race.Represents
import Multimaster.Race.Representing
import Multimaster.Race.Simulation
import Multimaster.Race.Convergence
import Multimaster.Mesh.MeshImpl
import Multimaster.Mesh.Mailbox
import Multimaster.Mesh.Stopping
import Multimaster.Mesh.Progress
import Multimaster.Mesh.Joining
import Multimaster.Mesh.Text
import Multimaster.Mesh.Startup
import Multimaster.Mesh.Settled
import Multimaster.Mesh.Start
