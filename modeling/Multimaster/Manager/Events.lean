import Multimaster.Manager.Handshake

/-! Discovery, timers and the runs of a node. -/

namespace Multimaster

variable {S : Suite} (K : Sink S (Node S))

def startDial (id : PeerId) (n : Node S) : Node S :=
  let r := n.record id
  let q := newOutbound K.env r.dialAddr n
  (startConnect K q.1 (q.2.setRecord id { r with state := .connecting, conn := some q.1 })).2

def maybeDial (id : PeerId) (n : Node S) : Node S :=
  let r := n.record id
  if !n.running then n
  else if r.id = K.env.self.nodeId then n
  else if r.state = .connected ∨ r.state = .connecting then n
  else if !r.haveAddr then n
  else if K.env.cfg.fanout ≠ 0 ∧ n.estab.keys.length ≥ K.env.cfg.fanout then n
  else startDial K id n

def onDiscovered (id : PeerId) (tcpListenPort : UInt16) (ip : UInt32) (n : Node S) : Node S :=
  let r := n.record id
  let m := (n.setRecord id { r with
    id
    lastSeen := K.env.oracle.clock n.pos
    dialAddr := ⟨ip, tcpListenPort⟩
    haveAddr := true
    announced := true
    state := if r.state = .lost then .disconnected else r.state }).bump
  maybeDial K id
    (if r.announced then m else (m.notify [.peerDiscovered id]).emitKnownSnapshot K.env)

def inboundConn (env : Env S) (addr : Addr) (n : Node S) : PeerConnection S where
  peerAddr := addr
  inbound := true
  state := .handshaking
  localNonce := UInt64.ofNat (env.oracle.random n.pos)
  secure := env.self.secure
  createdAt := env.oracle.clock n.pos
  lastRecv := env.oracle.clock n.pos
  lastSend := env.oracle.clock n.pos

/-- The inbound constructor runs before the object is pushed on `conns_`. -/
def acceptConnection (addr : Addr) (n : Node S) : Node S :=
  let p := n.freshPtr K.env
  let c := inboundConn K.env addr n
  let n := startInbound K p (Node.bump { n with heap := n.heap.insert p c })
  { n with conns := n.conns ++ [p] }

def startDialAddr (addr : Addr) (n : Node S) : Node S :=
  let q := newOutbound K.env addr n
  (startConnect K q.1 q.2).2

def dialSeed (n : Node S) (s : SeedPeer) : Node S :=
  match K.env.oracle.resolve n.pos s.host s.port with
  | none => n.bump
  | some addr => startDialAddr K addr n.bump

def dialSeeds (n : Node S) : Node S :=
  if !n.running then n else K.env.cfg.seedPeers.foldl (dialSeed K) n

def onReconnectTimer (id : PeerId) (n : Node S) : Node S :=
  match n.records.get? id with
  | none => n
  | some r =>
    if !n.running then n
    else if r.state = .connected ∨ r.state = .connecting ∨ r.state = .lost then n
    else if K.env.oracle.clock n.pos - r.lastSeen > K.env.cfg.peerLostTimeout then n.bump
    else maybeDial K id n.bump

def sweepBody (now : ℤ) (n : Node S) (p : Ptr) : Node S :=
  let cfg := K.env.cfg
  match (n.conn p).state with
  | .established =>
    let n := maybeHeartbeat K p now cfg.heartbeatInterval n
    if now - (n.conn p).lastRecv > cfg.heartbeatTimeout then closeGracefully K p n else n
  | .handshaking | .awaitingConfirm | .connectingOut =>
    if now - (n.conn p).createdAt > cfg.handshakeTimeout then closeGracefully K p n else n
  | .dead => n

/-- The range loop over `conns_`, with the iterators taken once. A close in the body may redial, and `push_back` may
then move the vector: the loop goes on in freed memory, where it reaches no further connection. -/
def sweepFrom (now : ℤ) : List Ptr → Node S → Node S
  | [], n => n
  | p :: ps, n =>
    let m := sweepBody K now n p
    if m.conns ≠ n.conns ∧ K.env.oracle.reallocates m.pos then m else sweepFrom now ps m

def sweep (now : ℤ) (n : Node S) : Node S := sweepFrom K now n.conns n

lemma sweepFrom_foldl (now : ℤ) (ps : List Ptr) (n : Node S) :
    ∃ l, l <+: ps ∧ sweepFrom K now ps n = l.foldl (sweepBody K now) n := by
  induction ps generalizing n with
  | nil => exact ⟨[], List.prefix_rfl, rfl⟩
  | cons p ps ih =>
    rw [sweepFrom]
    split_ifs
    · exact ⟨[p], List.prefix_append [p] ps, rfl⟩
    · obtain ⟨l, hl, h⟩ := ih (sweepBody K now n p)
      exact ⟨p :: l, List.prefix_cons_inj p |>.mpr hl, h⟩

lemma sweepFrom_all (now : ℤ) (ps : List Ptr) (n : Node S)
    (h : ∀ l, l <+: ps → (l.foldl (sweepBody K now) n).conns = n.conns) :
    sweepFrom K now ps n = ps.foldl (sweepBody K now) n := by
  induction ps generalizing n with
  | nil => rfl
  | cons p ps ih =>
    have hp : (sweepBody K now n p).conns = n.conns := h [p] (List.prefix_append [p] ps)
    rw [sweepFrom, if_neg (fun hm => hm.1 hp)]
    exact ih _ fun l hl => (h (p :: l) (List.prefix_cons_inj p |>.mpr hl)).trans hp.symm

def loseRecord (n : Node S) (id : PeerId) : Node S :=
  { n with records := n.records.erase id }.notify [.peerLost id]

def loseSilent (now : ℤ) (n : Node S) : Node S :=
  let toLose := (n.order K.env n.records.toList).filterMap (fun e =>
    if e.2.isStatic then none
    else if e.2.state = .connected ∨ e.2.state = .lost then none
    else if now - e.2.lastSeen > K.env.cfg.peerLostTimeout then some e.1
    else none)
  let n := n.bump
  if toLose = [] then n else (toLose.foldl loseRecord n).emitKnownSnapshot K.env

def floodSelfIdentity (exceptFd : Option Ptr) (n : Node S) : Node S :=
  if !K.env.self.hasIdentity then n
  else
    let r := makeSelfIdRecord K.env n
    let n := forwardExcept K (.identity r.1) exceptFd r.2
    Node.bump { n with lastIdFlood := K.env.oracle.clock n.pos }

def tickMembership (now : ℤ) (n : Node S) : Node S :=
  applyMembership K (n.membership.tick K.env.cfg K.env.self.nodeId now) n

def tickIdentity (now : ℤ) (n : Node S) : Node S :=
  if K.env.self.hasIdentity ∧ now - n.lastIdFlood ≥ K.env.cfg.membershipInterval then
    floodSelfIdentity K none n
  else n

def dialIfIsolated (n : Node S) : Node S := if n.estab.keys = [] then dialSeeds K n else n

def tick (n : Node S) : Node S :=
  if !n.running then n
  else
    let now := K.env.oracle.clock n.pos
    let n := maintainStaticPeers K (loseSilent K now (sweep K now n.bump))
    let n := dialIfIsolated K (tickIdentity K now (tickMembership K now n))
    n.addTimer K.env K.env.cfg.heartbeatInterval .tick

/-- `reap()`: the dead connections leave `conns_`, which destroys them. -/
def reapDead (n : Node S) : Node S :=
  { n with
    reapScheduled := false
    reap := []
    conns := n.conns.filter (· ∉ n.reap)
    heap := n.reap.foldl (fun h p => if p ∈ n.conns then h.erase p else h) n.heap }

def evictTimer (rearm : Bool) (n : Node S) : Node S :=
  let period := sweepPeriod K.env.cfg
  let now := K.env.oracle.clock n.pos
  let n := Node.bump { n with router := n.router.evictSweep K.env.cfg now }
  if rearm then n.addTimer K.env period (.evictSweep false) else n

def fireTimer (kind : TimerKind) (n : Node S) : Node S :=
  match kind with
  | .tick => tick K n
  | .reap => reapDead n
  | .reconnect id => onReconnectTimer K id n
  | .evictSweep rearm => evictTimer K rearm n

def shutdown (n : Node S) : Node S :=
  let n := { n with running := false }
  let n := n.conns.foldl
    (fun n p => if (n.conn p).state = .established then closeGracefully K p n else n) n
  { n with
    estab := ∅, heap := ∅, conns := [], records := ∅, staticTargets := [], staticDialConn := ∅
    membership := n.membership.clear, reap := [] }

def Node.initial (env : Env S) : Node S where
  selfIdVersion := UInt64.ofNat (env.oracle.random 0)
  router := { counter := UInt64.ofNat (env.oracle.random 1) }
  membership := { selfVersion := UInt64.ofNat (env.oracle.random 2) }
  pos := 3

def start (n : Node S) : Node S :=
  let cfg := K.env.cfg
  let period := sweepPeriod cfg
  let n := { n with running := true }.addTimer K.env period (.evictSweep true)
  let targets := cfg.staticPeers.map (fun s => { host := s.host, port := s.port : StaticTarget })
  let n := maintainStaticPeers K (dialSeeds K { n with staticTargets := n.staticTargets ++ targets })
  n.addTimer K.env cfg.heartbeatInterval .tick

/-- What the event loop may do to a node. An `on_io_events` call is a sequence of the
events from `hangup` to `secureTurn`; `timer i` fires the `i`-th pending timer. -/
inductive Event where
  | discovered (id : PeerId) (tcpListenPort : UInt16) (ip : UInt32)
  | accept (addr : Addr)
  | hangup (p : Ptr)
  | connected (p : Ptr)
  | writable (p : Ptr)
  | receive (p : Ptr) (l : Bytes)
  | eof (p : Ptr)
  | recvError (p : Ptr) (err : ℤ)
  | plaintextTurn (p : Ptr)
  | recordTurn (p : Ptr)
  | secureTurn (p : Ptr)
  | timer (i : ℕ)
  | broadcast (payload : Bytes)
  | send (dst : PeerId) (payload : Bytes)
  | shutdown

def Event.target : Event → Option Ptr
  | .hangup p | .connected p | .writable p | .receive p _ | .eof p | .recvError p _ | .plaintextTurn p
  | .recordTurn p | .secureTurn p => some p
  | _ => none

def Event.decidableTurn (e : Event) (P : Ptr → Prop) [DecidablePred P] :
    Decidable (∀ p, e = .plaintextTurn p → P p) :=
  match e with
  | .plaintextTurn p => decidable_of_iff (P p) ⟨fun h _ he => by cases he; exact h, fun h => h p rfl⟩
  | .discovered .. | .accept .. | .hangup .. | .connected .. | .writable .. | .receive .. | .eof ..
  | .recvError .. | .recordTurn .. | .secureTurn .. | .timer .. | .broadcast .. | .send .. | .shutdown =>
    .isTrue fun _ he => by cases he

def perform (L : Listener S (Node S)) (n : Node S) : Event → Node S
  | .discovered id port ip => onDiscovered L.toSink id port ip n
  | .accept addr => acceptConnection L.toSink addr n
  | .hangup p => fail L.toSink p .socket 0 "peer hangup/error" n
  | .connected p =>
    if (n.conn p).state = .connectingOut then onConnectComplete L.toSink p n else n
  | .writable p => if (n.conn p).state = .connectingOut then n else flushOutbound L.toSink p n
  | .receive p l => if (n.conn p).state = .connectingOut then n else receive L p l n
  | .eof p => fail L.toSink p .socket 0 "peer closed connection" n
  | .recvError p e => fail L.toSink p .socket e "recv failed" n
  | .plaintextTurn p =>
    if (n.conn p).state = .connectingOut ∨ sealedMode (n.conn p) then n else (plaintextTurn L p n).world
  | .recordTurn p => if sealedMode (n.conn p) then (recordTurn L p n).world else n
  | .secureTurn p => if sealedMode (n.conn p) then (secureTurn L p n).world else n
  | .timer i =>
    match n.timers[i]? with
    | none => n
    | some t => fireTimer L.toSink t.2 { n with timers := n.timers.eraseIdx i }
  | .broadcast payload => originateBroadcast L.toSink payload n
  | .send dst payload => originateTargeted L.toSink dst payload n
  | .shutdown => shutdown L.toSink n

def step (env : Env S) (n : Node S) (e : Event) : Node S :=
  if e.target.any (fun p => (n.conn p).dead) then n
  else perform (managerListener env (depth n)) n e

def started (env : Env S) : Node S :=
  start (managerSink env (depth (Node.initial env))) (Node.initial env)

def run (env : Env S) (es : List Event) : Node S := es.foldl (step env) (started env)

abbrev Along (env : Env S) (P : Node S → Event → Prop) : Node S → List Event → Prop := Throughout (step env) P

lemma run_induction {env : Env S} {P : Node S → Event → Prop} {I : Node S → Prop}
    (start : I (started env)) (step : ∀ n e, I n → P n e → I (step env n e)) {es : List Event}
    (h : Along env P (started env) es) : I (run env es) := by
  unfold run
  generalize started env = n at start h
  induction es generalizing n with
  | nil => exact start
  | cons e es ih => exact ih _ (step n e start h.1) h.2

end Multimaster
