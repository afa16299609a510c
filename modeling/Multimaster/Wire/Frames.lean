import Multimaster.Crypto.Suite

/-! The frames of `wire.hpp` and their encoders. -/

namespace Multimaster

abbrev PeerId := Octets 16
abbrev MessageId := Octets 16

/-- Body of a Hello or HelloAck frame. A key that is not sent keeps its zero default. -/
structure Hello (S : Suite) where
  nodeId : PeerId
  protocolVersion : UInt8
  tcpListenPort : UInt16
  groupName : Bytes
  nonce : UInt64
  secure : Bool := false
  ephPubKey : S.Block 32 := S.zero 32
  hasIdentity : Bool := false
  idPubKey : S.Block 32 := S.zero 32
  nodeName : Bytes := []
  deriving DecidableEq

def Hello.blank (S : Suite) : Hello S where
  nodeId := Octets.zero 16
  protocolVersion := 0
  tcpListenPort := 0
  groupName := []
  nonce := 0

structure DataView where
  src : PeerId
  dst : PeerId
  msgId : MessageId
  ttl : UInt8
  payload : Bytes
  deriving DecidableEq

structure MembershipRecord where
  origin : PeerId
  version : UInt64
  neighbors : List PeerId
  deriving DecidableEq

structure IdentityRecord (S : Suite) where
  idPubKey : S.Block 32
  version : UInt64
  name : Bytes
  signature : S.Block 64
  deriving DecidableEq

inductive Frame (S : Suite) where
  | hello (ack : Bool) (h : Hello S)
  | heartbeat
  | data (d : DataView)
  | goodbye
  | membership (m : MembershipRecord)
  | authConfirm (tag : S.Block 32) (sig : Option (S.Block 64))
  | identity (r : IdentityRecord S)
  deriving DecidableEq

def putStr (s : Bytes) : Bytes := networkOrder 1 (min s.length 255) ++ s.take 255

def patchLength (body : Bytes) : Bytes := networkOrder 4 body.length ++ body

variable {S : Suite}

def putBlock {n : ℕ} (b : S.Block n) : Bytes := (S.bytes b).val

def encodeHelloBody (ack : Bool) (h : Hello S) : Bytes :=
  [if ack then 2 else 1] ++ h.nodeId.val ++ [h.protocolVersion] ++
    networkOrder 2 h.tcpListenPort.toNat ++ putStr h.groupName ++ networkOrder 8 h.nonce.toNat ++
    [if h.secure then 1 else 0] ++ (if h.secure then putBlock h.ephPubKey else []) ++
    [if h.hasIdentity then 1 else 0] ++
    (if h.hasIdentity then putBlock h.idPubKey ++ putStr h.nodeName else [])

def encodeDataBody (d : DataView) : Bytes :=
  [4] ++ d.src.val ++ d.dst.val ++ d.msgId.val ++ [d.ttl] ++
    networkOrder 4 d.payload.length ++ d.payload

/-- At most `0xFFFF` neighbors are sent. -/
def encodeMembershipBody (m : MembershipRecord) : Bytes :=
  [6] ++ m.origin.val ++ networkOrder 8 m.version.toNat ++
    networkOrder 2 (min m.neighbors.length 0xFFFF) ++
    (m.neighbors.take 0xFFFF).flatMap (fun n => n.val)

def encodeAuthConfirmBody (tag : S.Block 32) (sig : Option (S.Block 64)) : Bytes :=
  [7] ++ putBlock tag ++ (match sig with
    | none => [0]
    | some s => [1] ++ putBlock s)

def encodeIdentityBody (r : IdentityRecord S) : Bytes :=
  [8] ++ putBlock r.idPubKey ++ networkOrder 8 r.version.toNat ++ putBlock r.signature ++ putStr r.name

def encodeBody : Frame S → Bytes
  | .hello ack h => encodeHelloBody ack h
  | .heartbeat => [3]
  | .data d => encodeDataBody d
  | .goodbye => [5]
  | .membership m => encodeMembershipBody m
  | .authConfirm tag sig => encodeAuthConfirmBody tag sig
  | .identity r => encodeIdentityBody r

/-- `encode_hello`, `encode_heartbeat`, `encode_data` and the other frame encoders. -/
def encode (f : Frame S) : Bytes := patchLength (encodeBody f)

end Multimaster
