import Multimaster.Manager.Closing

/-! What `peer_manager` does when a connection is Established and when a frame arrives on it. -/

namespace Multimaster

variable {S : Suite}

/-- Same direction: keep the older. Otherwise keep the one initiated by the lower node id. -/
def keepExisting (self : LocalIdentity S) (existing neu : PeerConnection S) (peer : PeerId) : Bool :=
  if existing.inbound = neu.inbound then true
  else
    let weAreLower := self.nodeId.lt peer
    let winnerInbound := !weAreLower
    existing.inbound == winnerInbound

def bindStatic (env : Env S) (p : Ptr) (pid : PeerId) (n : Node S) : Node S :=
  match n.staticDialConn.get? p with
  | none => n
  | some i =>
    let n := match n.staticTargets[i]? with
      | none => n
      | some t =>
        let n := match t.learnedId with
          | none => n
          | some old =>
            if old = pid then n
            else Node.emitKnownSnapshot env { n with records := n.records.erase old }
        n.setTarget i { t with learnedId := some pid, attempts := 0, dialing := none }
    { n with staticDialConn := n.staticDialConn.erase p }

def refreshed (env : Env S) (p : Ptr) (pid : PeerId) (h : Hello S) (fromStatic : Bool) (n : Node S) :
    PeerRecord :=
  { n.record pid with
    id := pid
    isStatic := (n.record pid).isStatic || fromStatic
    dialAddr := ⟨(n.conn p).peerAddr.ip, h.tcpListenPort⟩
    haveAddr := true
    lastSeen := env.oracle.clock n.pos
    announced := true }

def learnRecord (env : Env S) (p : Ptr) (pid : PeerId) (h : Hello S) (fromStatic : Bool)
    (n : Node S) : Node S :=
  let m := (n.setRecord pid (refreshed env p pid h fromStatic n)).bump
  if (n.record pid).announced then m else (m.notify [.peerDiscovered pid]).emitKnownSnapshot env

def existingLink (p : Ptr) (pid : PeerId) (n : Node S) : Option Ptr :=
  (n.estab.get? pid).filter (· ≠ p)

def installLink (p : Ptr) (pid : PeerId) (n : Node S) : Node S :=
  { n with estab := n.estab.insert pid p }.setRecord pid
    { n.record pid with conn := some p, state := .connected, reconnectAttempts := 0 }

def idRecordLabel : Bytes := ascii ['m', 'm', '-', 'i', 'd', 'r', 'e', 'c', '-', 'v', '1']

def idRecordMsg (version : UInt64) (name : Bytes) : List (Piece S.Block) :=
  [.text idRecordLabel, .text (networkOrder 8 version.toNat), .text name]

def makeSelfIdRecord (env : Env S) (n : Node S) : IdentityRecord S × Node S :=
  let version := n.selfIdVersion + 1
  ({ idPubKey := env.self.idKeys.pk
     version
     name := env.self.nodeName
     signature := S.sign (idRecordMsg version env.self.nodeName) env.self.idKeys.sk },
    { n with selfIdVersion := version })

def learnName (pid : PeerId) (h : Hello S) (n : Node S) : Node S :=
  if h.hasIdentity then { n with names := n.names.insert pid h.nodeName }.emitNamesSnapshot else n

variable (K : Sink S (Node S))

def sendIdentity (p : Ptr) (n : Node S) : Node S :=
  if K.env.self.hasIdentity then
    let r := makeSelfIdRecord K.env n
    sendRaw K p (.identity r.1) r.2
  else n

def announceConnected (pid : PeerId) (n : Node S) : Node S :=
  updateLocalMembership K ((n.notify [.peerConnected pid]).emitConnectedSnapshot K.env)

def takeLink (p : Ptr) (pid : PeerId) (h : Hello S) (existing : Option Ptr) (n : Node S) : Node S :=
  let wasConnected := (n.record pid).state = .connected
  let n := sendIdentity K p (learnName pid h (installLink p pid n))
  let n := match existing with
    | none => n
    | some q => closeGracefully K q (n.deref [q])
  if wasConnected then n else announceConnected K pid n

def onPeerHandshake (p : Ptr) (h : Hello S) (n : Node S) : Node S :=
  let self := K.env.self
  let pid := (n.conn p).peerId
  if pid = self.nodeId then closeGracefully K p n
  else
    let fromStatic := (n.staticDialConn.get? p).isSome
    let n := learnRecord K.env p pid h fromStatic (bindStatic K.env p pid n)
    match existingLink p pid n with
    | none => takeLink K p pid h none n
    | some q =>
      if keepExisting self (n.conn q) (n.conn p) pid then closeGracefully K p (n.deref [q])
      else takeLink K p pid h (some q) (n.deref [q])

def routerAct (n : Node S) : RouterAct S → Node S
  | .deliverLocal src payload => n.notify [.messageReceived src payload]
  | .flood f exceptFd => forwardExcept K f exceptFd n
  | .route dst f exceptFd =>
    let r := forwardTo K dst f n
    if r.1 then r.2 else forwardExcept K f exceptFd r.2

def applyRouter (r : GossipRouter × List (RouterAct S)) (n : Node S) : Node S :=
  r.2.foldl (routerAct K) { n with router := r.1 }

def onPeerData (p : Ptr) (view : DataView) (n : Node S) : Node S :=
  applyRouter K
    (n.router.onData K.env.cfg K.env.self.nodeId (K.env.oracle.clock n.pos) view (some p)) n.bump

def originateBroadcast (payload : Bytes) (n : Node S) : Node S :=
  applyRouter K
    (n.router.originateBroadcast K.env.cfg K.env.self.nodeId (K.env.oracle.clock n.pos) payload) n.bump

def originateTargeted (dst : PeerId) (payload : Bytes) (n : Node S) : Node S :=
  applyRouter K
    (n.router.originateTargeted K.env.cfg K.env.self.nodeId (K.env.oracle.clock n.pos) dst payload)
    n.bump

def onPeerMembership (p : Ptr) (rec : MembershipRecord) (n : Node S) : Node S :=
  applyMembership K
    (n.membership.onRemoteRecord K.env.self.nodeId rec (some p) (K.env.oracle.clock n.pos)) n.bump

def onPeerIdentity (p : Ptr) (rec : IdentityRecord S) (n : Node S) : Node S :=
  let self := K.env.self
  let origin := idFromIdentity rec.idPubKey
  if !self.hasIdentity then n
  else if origin = self.nodeId then n
  else if self.trustedKeys ≠ [] ∧ rec.idPubKey ∉ self.trustedKeys then n
  else if !S.verify (idRecordMsg rec.version rec.name) rec.signature rec.idPubKey then n
  else if (n.idVersions.get? origin).any (fun v => rec.version ≤ v) then n
  else
    let n := { n with idVersions := n.idVersions.insert origin rec.version }
    let n :=
      if n.names.get? origin = some rec.name then n
      else { n with names := n.names.insert origin rec.name }.emitNamesSnapshot
    forwardExcept K (.identity rec) (some p) n

/-- `peer_manager` as the `connection_listener` of its connections. -/
def managerListener (env : Env S) (k : ℕ) : Listener S (Node S) where
  toSink := managerSink env k
  onPeerHandshake := onPeerHandshake (managerSink env k)
  onPeerData := onPeerData (managerSink env k)
  onPeerMembership := onPeerMembership (managerSink env k)
  onPeerIdentity := onPeerIdentity (managerSink env k)

end Multimaster
