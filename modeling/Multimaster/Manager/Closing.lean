import Multimaster.Manager.State

/-! Forwarding, dialing and `on_peer_closed`. A send may close a connection, and a close floods
a membership record and redials static peers, so these call each other. -/

namespace Multimaster

variable {S : Suite} (K : Sink S (Node S))

def forwardExcept (f : Frame S) (exceptFd : Option Ptr) (n : Node S) : Node S :=
  let targets := (n.order K.env n.estab.toList).filterMap
    (fun e => if some e.2 ≠ exceptFd then some e.2 else none)
  targets.foldl (fun n p => sendRaw K p f (n.deref [p])) (n.deref (n.estab.toList.map (·.2))).bump

def forwardTo (dst : PeerId) (f : Frame S) (n : Node S) : Bool × Node S :=
  match n.estab.get? dst with
  | none => (false, n)
  | some p => (true, sendRaw K p f (n.deref [p]))

def applyMembership (r : Membership × List Notice × Option (Flood S)) (n : Node S) : Node S :=
  let n := { n with membership := r.1 }.notify r.2.1
  match r.2.2 with
  | none => n
  | some (f, exceptFd) => forwardExcept K f exceptFd n

def updateLocalMembership (n : Node S) : Node S :=
  let direct := n.order K.env n.estab.keys
  let r := n.membership.setLocalNeighbors K.env.self.nodeId direct (K.env.oracle.clock n.pos)
  applyMembership K r n.bump

/-- `make_unique<peer_connection>` for a dial, then `conns_.push_back`. -/
def newOutbound (env : Env S) (addr : Addr) (n : Node S) : Ptr × Node S :=
  let now := env.oracle.clock n.pos
  let p := n.freshPtr env
  let c : PeerConnection S := {
    peerAddr := addr
    inbound := false
    state := .connectingOut
    localNonce := UInt64.ofNat (env.oracle.random n.pos)
    secure := env.self.secure
    createdAt := now
    lastRecv := now
    lastSend := now }
  (p, Node.bump { n with heap := n.heap.insert p c, conns := n.conns ++ [p] })

/-- The part of `start_static_dial` before `start_connect`. -/
def openStatic (env : Env S) (i : ℕ) (t : StaticTarget) (addr : Addr) (n : Node S) : Ptr × Node S :=
  let r := newOutbound env addr n
  let n := r.2.setTarget i { t with dialing := some r.1 }
  (r.1, { n with staticDialConn := n.staticDialConn.insert r.1 i })

def startStaticDial (i : ℕ) (t : StaticTarget) (n : Node S) : Node S :=
  match K.env.oracle.resolve n.pos t.host t.port with
  | none =>
    n.bump.notify [.onError {
      category := .discovery, err := 0,
      what := "static peer DNS resolution failed: " ++ t.host, peer := none }]
  | some addr =>
    let r := openStatic K.env i t addr n.bump
    (startConnect K r.1 r.2).2

def targetUp (n : Node S) (t : StaticTarget) : Bool :=
  t.learnedId.any (fun id => (n.estab.get? id).isSome)

def maintainTarget (now : ℤ) (n : Node S) (i : ℕ) : Node S :=
  match n.staticTargets[i]? with
  | none => n
  | some t =>
    if targetUp n t then n.setTarget i { t with attempts := 0 }
    else if t.dialing.isSome then n
    else if now < t.nextAttempt then n
    else
      let delay := backoff K.env.cfg t.attempts (K.env.oracle.random n.pos)
      let t := { t with nextAttempt := now + delay, attempts := t.attempts + 1 }
      startStaticDial K i t (n.bump.setTarget i t)

def maintainStaticPeers (n : Node S) : Node S :=
  if !n.running then n
  else
    let now := K.env.oracle.clock n.pos
    (List.range n.staticTargets.length).foldl (maintainTarget K now) n.bump

def scheduleReconnect (env : Env S) (id : PeerId) (n : Node S) : Node S :=
  match n.records.get? id with
  | none => n
  | some r =>
    if !n.running then n
    else if r.state = .connected ∨ r.state = .lost then n
    else
      let delay := backoff env.cfg r.reconnectAttempts (env.oracle.random n.pos)
      let n := n.bump.setRecord id { r with reconnectAttempts := r.reconnectAttempts + 1 }
      n.addTimer env delay (.reconnect r.id)

def scheduleReap (env : Env S) (n : Node S) : Node S :=
  if n.reapScheduled then n else { n with reapScheduled := true }.addTimer env 0 .reap

def releaseDial (p : Ptr) (n : Node S) : Node S :=
  { n with
    staticTargets := match n.staticDialConn.get? p with
      | none => n.staticTargets
      | some i => n.staticTargets.modify i fun t => { t with dialing := none }
    staticDialConn := n.staticDialConn.erase p }

def detachEstab (p : Ptr) (n : Node S) : Node S :=
  let pid := (n.conn p).peerId
  { n with
    estab := if !pid.isZero && n.estab.get? pid == some p then n.estab.erase pid else n.estab }

def owningRecord (env : Env S) (p : Ptr) (n : Node S) : Option PeerId :=
  let pid := (n.conn p).peerId
  if !pid.isZero && (n.records.get? pid).isSome then some pid
  else ((n.order env n.records.toList).find? (fun e => e.2.conn == some p)).map (·.1)

def releaseRecord (id : PeerId) (r : PeerRecord) (n : Node S) : Node S :=
  let n := n.setRecord id { r with conn := none, state := .disconnected }
  if r.state = .connected then
    updateLocalMembership K ((n.notify [.peerDisconnected r.id]).emitConnectedSnapshot K.env)
  else n

def closeRecord (p : Ptr) (id : PeerId) (n : Node S) : Node S :=
  match n.records.get? id with
  | none => n
  | some r =>
    if r.conn = some p then
      let n := releaseRecord K id r n
      if r.isStatic then maintainStaticPeers K n else scheduleReconnect K.env id n
    else n

def onPeerClosed (p : Ptr) (n : Node S) : Node S :=
  let n := detachEstab p (releaseDial p n)
  let owner := owningRecord K.env p n
  let n := n.bump
  let n := match owner with
    | none => n
    | some id => closeRecord K p id n
  scheduleReap K.env { n with reap := n.reap ++ [p] }

/-- `on_peer_closed` with the closes it triggers itself. Each of those needs a record that
still holds a connection and clears it, so the number of records bounds the depth. -/
def closing (env : Env S) : ℕ → Ptr → Node S → Node S
  | 0, _, n => { n with stuck := true }
  | k + 1, p, n => onPeerClosed (nodeSink env (closing env k)) p n

def managerSink (env : Env S) (k : ℕ) : Sink S (Node S) := nodeSink env (closing env k)

/-- Enough for any event that starts in `n`, which adds at most one record before it sends. -/
def depth (n : Node S) : ℕ := n.records.keys.length + 2

end Multimaster
