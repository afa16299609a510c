import Multimaster.Wire.Decode

/-! Configuration, the answers of the operating system, and the fields of a `peer_connection`. -/

namespace Multimaster

/-- Address of a heap object. It also stands for the file descriptor of the connection's
socket: a connection owns one socket from its first use to its destruction. -/
abbrev Ptr := ℕ

structure Addr where
  ip : UInt32
  port : UInt16
  deriving DecidableEq, Inhabited

structure SeedPeer where
  host : String
  port : UInt16
  deriving DecidableEq

inductive Overflow where
  | disconnect
  | dropOldest
  | dropNewest
  deriving DecidableEq

/-- `mesh_config`; durations are in milliseconds. -/
structure MeshConfig where
  requireIdentity : Bool := true
  peerLostTimeout : ℤ := 5000
  heartbeatInterval : ℤ := 1000
  heartbeatTimeout : ℤ := 3000
  handshakeTimeout : ℤ := 2000
  reconnectBase : ℤ := 500
  reconnectMax : ℤ := 30000
  initialTtl : UInt8 := 8
  dedupTtl : ℤ := 30000
  maxDedupEntries : ℕ := 100000
  fanout : ℕ := 0
  membershipInterval : ℤ := 2000
  membershipTimeout : ℤ := 8000
  maxOutboundQueueBytes : ℕ := 8388608
  overflowPolicy : Overflow := .disconnect
  maxMessageBytes : ℕ := 16777216
  seedPeers : List SeedPeer := []
  staticPeers : List SeedPeer := []

structure LocalIdentity (S : Suite) where
  nodeId : PeerId
  groupName : Bytes
  protocolVersion : UInt8
  listenPort : UInt16
  secure : Bool
  groupKey : S.Block 32
  hasIdentity : Bool
  idKeys : IdentityKeypair S
  nodeName : Bytes
  trustedKeys : List (S.Block 32)

inductive SendAnswer where
  | wrote (n : ℕ)
  | again
  | interrupted
  | error (errno : ℤ)
  deriving DecidableEq

inductive RecvAnswer where
  | data (l : Bytes)
  | again
  | interrupted
  | eof
  | error (errno : ℤ)
  deriving DecidableEq

/-- Outcome of `socket()`, `connect()` and the epoll registration in `start_connect`. -/
inductive ConnectAnswer where
  | inProgress
  | noSocket (errno : ℤ)
  | refused (errno : ℤ)
  | epollFailed (errno : ℤ)
  deriving DecidableEq

/-- Every answer the node gets from outside, indexed by the number of questions asked before. -/
structure Oracle (S : Suite) where
  clock : ℕ → ℤ
  send : ℕ → List SendAnswer
  recv : ℕ → List RecvAnswer
  connect : ℕ → ConnectAnswer
  soError : ℕ → ℤ
  epoll : ℕ → Bool
  resolve : ℕ → String → UInt16 → Option Addr
  random : ℕ → ℕ
  secret : ℕ → S.Block 32
  malloc : ℕ → Ptr
  order : ℕ → List ℕ
  reallocates : ℕ → Bool := fun _ => false

structure Env (S : Suite) where
  cfg : MeshConfig
  self : LocalIdentity S
  oracle : Oracle S

inductive ErrorCategory where
  | socket
  | protocol
  | discovery
  | backpressure
  | crypto
  | identity
  deriving DecidableEq

structure Error where
  category : ErrorCategory
  err : ℤ
  what : String
  peer : Option PeerId
  deriving DecidableEq

inductive ConnState where
  | connectingOut
  | handshaking
  | awaitingConfirm
  | established
  | dead
  deriving DecidableEq

/-- Something the connection appended to `out_`: a frame in the clear, or a sealed record. -/
inductive Sent (S : Suite) where
  | plain (f : Frame S)
  | record (key : S.Block 32) (ctr : UInt64) (f : Frame S)

def Sent.frame {S : Suite} : Sent S → Frame S
  | .plain f => f
  | .record _ _ f => f

inductive Source where
  | inBuf
  | plainBuf
  deriving DecidableEq

/-- `peer_connection`. The fields from `written` on are history: the bytes the socket took,
what was put on `out_`, the bytes received, the frames dispatched, the bytes of them read in the
clear, the contents of the records opened, the first failure, and whether the outbound cap was
ever hit. -/
structure PeerConnection (S : Suite) where
  peerAddr : Addr
  inbound : Bool
  state : ConnState
  peerId : PeerId := Octets.zero 16
  peerListenPort : UInt16 := 0
  localNonce : UInt64
  peerNonce : UInt64 := 0
  secure : Bool
  ephKeys : EphemeralKeypair S := ⟨S.zero 32, S.zero 32⟩
  sess : Option (SecureSession S) := none
  myConfirmTag : S.Block 32 := S.zero 32
  expectedPeerTag : S.Block 32 := S.zero 32
  useIdentity : Bool := false
  myIdSig : S.Block 64 := S.zero 64
  peerHello : Hello S := Hello.blank S
  plainBuf : Bytes := []
  inBuf : Bytes := []
  outBuf : Bytes := []
  wantWrite : Bool := false
  createdAt : ℤ
  lastRecv : ℤ
  lastSend : ℤ
  registered : Bool := false
  interestIn : Bool := false
  interestOut : Bool := false
  dead : Bool := false
  written : Bytes := []
  sent : List (Sent S) := []
  heard : Bytes := []
  dispatched : List (Source × Frame S) := []
  plainRead : ℕ := 0
  opened : List Bytes := []
  failure : Option (ErrorCategory × ℤ × String) := none
  overflowed : Bool := false

structure Sink (S : Suite) (W : Type) where
  env : Env S
  conn : W → Ptr → PeerConnection S
  setConn : Ptr → PeerConnection S → W → W
  pos : W → ℕ
  bump : W → W
  onPeerClosed : Ptr → W → W
  reportError : Error → W → W

structure Listener (S : Suite) (W : Type) extends Sink S W where
  onPeerHandshake : Ptr → Hello S → W → W
  onPeerData : Ptr → DataView → W → W
  onPeerMembership : Ptr → MembershipRecord → W → W
  onPeerIdentity : Ptr → IdentityRecord S → W → W

namespace Sink

variable {S : Suite} {W : Type} (K : Sink S W)

def modify (p : Ptr) (f : PeerConnection S → PeerConnection S) (w : W) : W :=
  K.setConn p (f (K.conn w p)) w

def now (w : W) : ℤ := K.env.oracle.clock (K.pos w)

end Sink

end Multimaster
