import Multimaster.Wire.Frames

/-! `try_decode_frame`, the bounds-checked reader under it and the discovery datagram that it also reads. -/

namespace Multimaster

abbrev Reader := StateT Bytes Option

namespace Reader

def take (n : ℕ) : Reader Bytes := fun l =>
  if l.length < n then none else some (l.take n, l.drop n)

def u8 : Reader UInt8 := fun l =>
  match l with
  | [] => none
  | b :: l => some (b, l)

def octets (n : ℕ) : Reader (Octets n) := fun l =>
  if h : l.length < n then none
  else some (⟨l.take n, by rw [List.length_take]; omega⟩, l.drop n)

def unsigned (w : ℕ) : Reader ℕ := do
  return hostOrder (← take w)

def str : Reader Bytes := do
  let n ← u8
  take n.toNat

def block (S : Suite) (n : ℕ) : Reader (S.Block n) := do
  return S.ofBytes (← octets n)

def ids : ℕ → Reader (List PeerId)
  | 0 => pure []
  | n + 1 => do
    let id ← octets 16
    let rest ← ids n
    return id :: rest

end Reader

inductive Decoded (S : Suite) where
  | needMore
  | ok (f : Frame S) (consumed : ℕ)
  | error

variable {S : Suite}

open Reader

def readHello (ack : Bool) : Reader (Frame S) := do
  let nodeId ← octets 16
  let protocolVersion ← u8
  let tcpListenPort ← unsigned 2
  let groupName ← str
  let nonce ← unsigned 8
  let secure := (← u8) != 0
  let ephPubKey ← if secure then block S 32 else pure (S.zero 32)
  let hasIdentity := (← u8) != 0
  let idPubKey ← if hasIdentity then block S 32 else pure (S.zero 32)
  let nodeName ← if hasIdentity then str else pure []
  return .hello ack {
    nodeId, protocolVersion, tcpListenPort := UInt16.ofNat tcpListenPort, groupName,
    nonce := UInt64.ofNat nonce, secure, ephPubKey, hasIdentity, idPubKey, nodeName }

def readAuthConfirm : Reader (Frame S) := do
  let tag ← block S 32
  let hasSig := (← u8) != 0
  let sig ← if hasSig then some <$> block S 64 else pure none
  return .authConfirm tag sig

def readData : Reader (Frame S) := do
  let src ← octets 16
  let dst ← octets 16
  let msgId ← octets 16
  let ttl ← u8
  let plen ← unsigned 4
  let payload ← take plen
  return .data { src, dst, msgId, ttl, payload }

def readMembership : Reader (Frame S) := do
  let origin ← octets 16
  let version ← unsigned 8
  let count ← unsigned 2
  let neighbors ← ids count
  return .membership { origin, version := UInt64.ofNat version, neighbors }

def readIdentity : Reader (Frame S) := do
  let idPubKey ← block S 32
  let version ← unsigned 8
  let signature ← block S 64
  let name ← str
  return .identity { idPubKey, version := UInt64.ofNat version, name, signature }

def readBody : Reader (Frame S) := do
  let type ← u8
  match type with
  | 1 => readHello false
  | 2 => readHello true
  | 3 => pure .heartbeat
  | 4 => readData
  | 5 => pure .goodbye
  | 6 => readMembership
  | 7 => readAuthConfirm
  | 8 => readIdentity
  | _ => failure

def tryDecodeFrame (inp : Bytes) (maxMessageBytes : ℕ) : Decoded S :=
  if inp.length < 4 then .needMore
  else
    let len := hostOrder (inp.take 4)
    if len < 1 then .error
    else if len > maxMessageBytes then .error
    else if inp.length < 4 + len then .needMore
    else
      match readBody ((inp.drop 4).take len) with
      | none => .error
      | some (f, _) => .ok f ((4 + len) % 2 ^ 32)

structure Announce where
  protocolVersion : UInt8 := 0
  flags : UInt8 := 0
  tcpListenPort : UInt16 := 0
  nodeId : PeerId
  groupName : Bytes
  deriving DecidableEq

/-- The bytes `MMCA`. -/
def kAnnounceMagic : ℕ := 0x4D4D4341

def encodeAnnounce (a : Announce) : Bytes :=
  networkOrder 4 kAnnounceMagic ++ [a.protocolVersion] ++ [a.flags] ++
    networkOrder 2 a.tcpListenPort.toNat ++ a.nodeId.val ++ putStr a.groupName

def readAnnounce : Reader Announce := do
  let magic ← unsigned 4
  guard (magic = kAnnounceMagic)
  let protocolVersion ← u8
  let flags ← u8
  let tcpListenPort ← unsigned 2
  let nodeId ← octets 16
  let groupName ← str
  return { protocolVersion, flags, tcpListenPort := UInt16.ofNat tcpListenPort, nodeId, groupName }

def decodeAnnounce (inp : Bytes) : Option Announce := (readAnnounce inp).map (·.1)

end Multimaster
