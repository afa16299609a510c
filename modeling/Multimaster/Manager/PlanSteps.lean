import Multimaster.Manager.BookEvents
import Multimaster.Manager.Names

/-! What an event does to the plan of a node, step by step: the frames that are queued, the timers that are armed and
the dials that are made. What a step leaves to be done later in the same event is part of the state. -/

namespace Multimaster

variable {S : Suite}

section Dials

variable (env : Env S)

def sighted (id : PeerId) (port : UInt16) (ip : UInt32) (n : Node S) : PeerRecord :=
  { n.record id with
    id
    lastSeen := env.oracle.clock n.pos
    dialAddr := ⟨ip, port⟩
    haveAddr := true
    announced := true
    state := if (n.record id).state = .lost then .disconnected else (n.record id).state }

def met (id : PeerId) (port : UInt16) (ip : UInt32) (n : Node S) : Node S :=
  recorded env id (sighted env id port ip n) n

def MayDial (id : PeerId) (n : Node S) : Prop :=
  n.running = true ∧ (n.record id).id ≠ env.self.nodeId ∧
    ¬((n.record id).state = .connected ∨ (n.record id).state = .connecting) ∧ (n.record id).haveAddr = true ∧
    ¬(env.cfg.fanout ≠ 0 ∧ n.estab.keys.length ≥ env.cfg.fanout)

instance (id : PeerId) (n : Node S) : Decidable (MayDial env id n) := inferInstanceAs (Decidable (_ ∧ _))

def StillWanted (id : PeerId) (n : Node S) : Prop :=
  ∃ r ∈ n.records.get? id, n.running = true ∧
    ¬(r.state = .connected ∨ r.state = .connecting ∨ r.state = .lost) ∧
    ¬env.oracle.clock n.pos - r.lastSeen > env.cfg.peerLostTimeout

instance (id : PeerId) (n : Node S) : Decidable (StillWanted env id n) :=
  inferInstanceAs (Decidable (∃ r ∈ n.records.get? id, _))

def dialled (id : PeerId) (n : Node S) : Node S :=
  (newOutbound env (n.record id).dialAddr n).2.setRecord id
    { n.record id with state := .connecting, conn := some (n.freshPtr env) }

def Event.calling (o : Node S) : Event → Option (PeerId × Node S)
  | .discovered id port ip => some (id, met env id port ip o)
  | .timer i =>
    match o.timers[i]? with
    | some (_, .reconnect id) =>
      if StillWanted env id { o with timers := o.timers.eraseIdx i } then
        some (id, Node.bump { o with timers := o.timers.eraseIdx i })
      else none
    | _ => none
  | _ => none

/-- The peer that `maybe_dial` dials in an event, and the connection it makes. -/
def Event.dialing (o : Node S) (e : Event) : Option (PeerId × Ptr) :=
  (e.calling env o).bind fun x => if MayDial env x.1 x.2 then some (x.1, x.2.freshPtr env) else none

end Dials

def Admissible (env : Env S) (rec : IdentityRecord S) (n : Node S) : Prop :=
  Accredited env rec ∧ (n.idVersions.get? (idFromIdentity rec.idPubKey)).any (fun v => rec.version ≤ v) = false

def Event.Hands (env : Env S) (n : Node S) (e : Event) (p : Ptr) (f : Frame S) : Prop :=
  e.frame env n = some (p, f) ∧ (n.conn p).dead = false ∧
    (e = .plaintextTurn p ∧ (n.conn p).state ≠ .connectingOut ∧ sealedMode (n.conn p) = false ∨
      e = .secureTurn p ∧ sealedMode (n.conn p) = true)

def Event.Relays (env : Env S) (n : Node S) (e : Event) (rec : IdentityRecord S) : Prop :=
  ∃ p, e.Hands env n p (.identity rec) ∧ (n.conn p).state = .established ∧ Admissible env rec n

def Speaks (env : Env S) (o : Node S) (e : Option Event) (f : Frame S) : Prop :=
  ∀ rec, f = .identity rec → rec.idPubKey = env.self.idKeys.pk ∨ ∃ ev, e = some ev ∧ ev.Relays env o rec

def Notice.ofLink : Notice → Bool
  | .peerConnected _ | .peerDisconnected _ | .peerLost _ => true
  | _ => false

def Node.plan (n : Node S) : Node S :=
  { n with
    staticTargets := [], staticDialConn := ∅, names := ∅, selfIdVersion := 0, lastIdFlood := 0
    router := { counter := 0 }, membership := { selfVersion := 0 }
    notices := n.notices.filter Notice.ofLink, pos := 0, strayed := false, stuck := false }

structure Beside (n m : Node S) : Prop where
  plan : m.plan = n.plan
  pos : n.pos ≤ m.pos

def PeerConnection.log (c : PeerConnection S) :=
  (c.dead, c.state, c.secure, c.createdAt, c.lastRecv, c.lastSend, c.sent, c.dispatched)

inductive Duty where
  | rearm (id : PeerId) (isStatic : Bool)
  | link (p : Ptr)
  | close (q : Ptr)
  | announce (id : PeerId)
  | adopt (p : Ptr)
  | speak (p : Ptr)
  deriving DecidableEq

structure Instant (S : Suite) where
  node : Node S
  due : List Duty := []

namespace Instant

def on (s : Instant S) (n : Node S) : Instant S := { s with node := n }

def owing (s : Instant S) (d : Duty) : Instant S := { s with due := d :: s.due }

def idle (n : Node S) : Instant S := { node := n }

end Instant

def appended (env : Env S) (p : Ptr) (rec : Bytes) (item : Sent S) (n : Node S) : Node S :=
  n.bump.setConn p { n.conn p with
    outBuf := (n.conn p).outBuf ++ rec, lastSend := env.oracle.clock n.pos, sent := (n.conn p).sent ++ [item] }

def letGo (id : PeerId) (r : PeerRecord) (n : Node S) : Node S :=
  let m := n.setRecord id { r with conn := none, state := .disconnected }
  if r.state = .connected then m.notify [.peerDisconnected r.id] else m

def linkDuties (p : Ptr) (pid : PeerId) (n : Node S) : List Duty :=
  (existingLink p pid n).toList.map .close ++ if (n.record pid).state = .connected then [] else [.announce pid]

structure Greets (env : Env S) (o : Node S) (e : Option Event) (s : Instant S) (p : Ptr) (pid : PeerId) : Prop where
  event : e = some (.plaintextTurn p)
  next : nextPeer env o p = some pid
  other : pid ≠ env.self.nodeId
  timers : s.node.timers = o.timers
  due : s.due = []
  pos : o.pos ≤ s.node.pos
  outdated : ∀ old, Outdated s.node p pid old → Outdated o p pid old

inductive PlanStep (env : Env S) (o : Node S) (e : Option Event) : Instant S → Instant S → Prop where
  | aside {s : Instant S} {m : Node S} (h : Beside s.node m) : PlanStep env o e s (s.on m)
  | tend {s : Instant S} (p : Ptr) (d : PeerConnection S) (h : d.log = (s.node.conn p).log) :
      PlanStep env o e s (s.on (s.node.setConn p d))
  | append {s : Instant S} (p : Ptr) (rec : Bytes) (item : Sent S) (hf : Speaks env o e item.frame) :
      PlanStep env o e s (s.on (appended env p rec item s.node))
  | speak {s : Instant S} (p : Ptr) (rec : Bytes) (item : Sent S) (hf : Speaks env o e item.frame) :
      PlanStep env o e (s.owing (.speak p)) (s.on (appended env p rec item s.node))
  | outbound {s : Instant S} (addr : Addr) : PlanStep env o e s (s.on (newOutbound env addr s.node).2)
  | dial {n : Node S} (ev : Event) (id : PeerId) (he : e = some ev) (hc : ev.calling env o = some (id, n))
      (hm : MayDial env id n) : PlanStep env o e (.idle n) (.idle (dialled env id n))
  | die {s : Instant S} (p : Ptr) (hp : (s.node.conn p).dead = false) : PlanStep env o e s (s.on (unlinkBase p s.node))
  | release {s : Instant S} (id : PeerId) (r : PeerRecord) (p : Ptr) (hr : s.node.records.get? id = some r)
      (hc : r.conn = some p) : PlanStep env o e s ((s.on (letGo id r s.node)).owing (.rearm id r.isStatic))
  | arm {s : Instant S} (id : PeerId) :
      PlanStep env o e (s.owing (.rearm id false)) (s.on (scheduleReconnect env id s.node))
  | settle {s : Instant S} (id : PeerId) : PlanStep env o e (s.owing (.rearm id true)) s
  | bury {s : Instant S} (p : Ptr) : PlanStep env o e s (s.on (buryLater env p s.node))
  | stamp (ev : Event) (p : Ptr) (f : Frame S) (src : Source) (he : e = some ev) (hh : ev.Hands env o p f) :
      PlanStep env o e (.idle o) (.idle (o.bump.setConn p (stamped env o p f src)))
  | connect {s : Instant S} (p : Ptr) (hs : (s.node.conn p).state = .connectingOut) :
      PlanStep env o e s ((s.on (s.node.setConn p { s.node.conn p with state := .handshaking })).owing (.speak p))
  | confirm {s : Instant S} (p : Ptr) (d : PeerConnection S) (hs : (s.node.conn p).state = .handshaking)
      (hsec : (s.node.conn p).secure = true) (h : d.log = { s.node.conn p with state := .awaitingConfirm }.log) :
      PlanStep env o e s ((s.on (s.node.setConn p d)).owing (.speak p))
  | establish {s : Instant S} (p : Ptr) (hd : (s.node.conn p).dead = false)
      (hs : (s.node.conn p).state = .handshaking ∧ (s.node.conn p).secure = false ∨
        (s.node.conn p).state = .awaitingConfirm ∧ (s.node.conn p).secure = true) :
      PlanStep env o e s ((s.on (s.node.setConn p { s.node.conn p with state := .established })).owing (.link p))
  | leave {s : Instant S} (p : Ptr) (hp : Grave s.node p) : PlanStep env o e (s.owing (.link p)) s
  | learn {s : Instant S} (p : Ptr) (pid : PeerId) (h : Hello S) (hp : (s.node.conn p).peerId = pid)
      (hg : Greets env o e s p pid) :
      PlanStep env o e (s.owing (.link p)) ((s.on (learned env p h s.node)).owing (.link p))
  | install {s : Instant S} (p : Ptr) (pid : PeerId) (hr : (s.node.records.get? pid).isSome)
      (hg : Greets env o e s p pid) (hl : ∃ i, o.pos ≤ i ∧ (s.node.record pid).lastSeen = env.oracle.clock i) :
      PlanStep env o e (s.owing (.link p))
        { node := installLink p pid s.node, due := linkDuties p pid s.node ++ s.due }
  | close {s : Instant S} (q : Ptr) (hq : (s.node.conn q).dead = true) : PlanStep env o e (s.owing (.close q)) s
  | announce {s : Instant S} (pid : PeerId) :
      PlanStep env o e (s.owing (.announce pid)) (s.on (s.node.notify [.peerConnected pid]))
  | meet (id : PeerId) (port : UInt16) (ip : UInt32) (he : e = some (.discovered id port ip)) :
      PlanStep env o e (.idle o) (.idle (met env id port ip o))
  | lose {s : Instant S} (i : ℕ) (ids : List PeerId) (he : e = some (.timer i)) (hn : ids.Nodup)
      (h : ∀ id ∈ ids, ∃ r, s.node.records.get? id = some r ∧ r.isStatic = false ∧ r.state ≠ .connected ∧
        env.oracle.clock o.pos - r.lastSeen > env.cfg.peerLostTimeout) :
      PlanStep env o e s (s.on ((ids.foldl loseRecord s.node).emitKnownSnapshot env))
  | fire (i : ℕ) (t : ℤ × TimerKind) (he : e = some (.timer i)) (ht : o.timers[i]? = some t) :
      PlanStep env o e (.idle o) (.idle { o with timers := o.timers.eraseIdx i })
  | arrange {s : Instant S} (delay : ℤ) (kind : TimerKind) (hk : ∀ id, kind ≠ .reconnect id) :
      PlanStep env o e s (s.on (s.node.addTimer env delay kind))
  | construct (addr : Addr) (he : e = some (.accept addr)) : PlanStep env o e (.idle o)
      (((Instant.idle { o with heap := o.heap.insert (o.freshPtr env) (inboundConn env addr o) }).owing
        (.adopt (o.freshPtr env))).owing (.speak (o.freshPtr env)))
  | adopt {s : Instant S} (p : Ptr) :
      PlanStep env o e (s.owing (.adopt p)) (s.on { s.node with conns := s.node.conns ++ [p] })
  | reap {n : Node S} (i : ℕ) (d : ℤ) (he : e = some (.timer i)) (ht : o.timers[i]? = some (d, .reap)) :
      PlanStep env o e (.idle n) (.idle (reapDead n))
  | identify {s : Instant S} (ev : Event) (rec : IdentityRecord S) (he : e = some ev) (hr : ev.Relays env o rec)
      (hi : s.node.idVersions = o.idVersions) : PlanStep env o e s (s.on { s.node with
        idVersions := s.node.idVersions.insert (idFromIdentity rec.idPubKey) rec.version })
  | begin {n : Node S} (he : e = none) : PlanStep env o e (.idle n) (.idle { n with running := true })
  | stop (he : e = some .shutdown) : PlanStep env o e (.idle o) (.idle { o with running := false })
  | clear {n : Node S} (m : Membership) (he : e = some .shutdown) : PlanStep env o e (.idle n) (.idle { n with
      estab := ∅, heap := ∅, conns := [], records := ∅, staticTargets := [], staticDialConn := ∅
      membership := m, reap := [] })

abbrev PlanSteps (env : Env S) (o : Node S) (e : Option Event) : Instant S → Instant S → Prop :=
  Relation.ReflTransGen (PlanStep env o e)

namespace Beside

variable {n m : Node S}

lemma refl (n : Node S) : Beside n n := ⟨rfl, le_rfl⟩

lemma trans {l : Node S} (h : Beside n m) (k : Beside m l) : Beside n l := ⟨k.plan.trans h.plan, h.pos.trans k.pos⟩

lemma field (h : Beside n m) {α : Type} (f : Node S → α) (hf : ∀ n, f n.plan = f n) : f m = f n := by
  rw [← hf m, ← hf n]
  exact congrArg f h.plan

lemma bump (n : Node S) : Beside n n.bump := ⟨rfl, Nat.le_succ _⟩

lemma deref (n : Node S) (ps : List Ptr) : Beside n (n.deref ps) := ⟨rfl, le_rfl⟩

lemma notify (n : Node S) {l : List Notice} (h : ∀ x ∈ l, x.ofLink = false) : Beside n (n.notify l) := by
  have hl : l.filter Notice.ofLink = [] := List.filter_eq_nil_iff.mpr fun x hx => ne_true_of_eq_false (h x hx)
  refine ⟨?_, le_rfl⟩
  simp only [Node.plan, Node.notify, List.filter_append, hl, List.append_nil]

lemma connected (env : Env S) (n : Node S) : Beside n (n.emitConnectedSnapshot env) :=
  (notify n (by simp [Notice.ofLink])).trans (bump _)

end Beside

section Frames

variable {env : Env S} {o : Node S} {e : Option Event}

lemma speaks_of_ne {f : Frame S} (h : ∀ rec, f ≠ .identity rec) : Speaks env o e f :=
  fun rec hf => absurd hf (h rec)

lemma speaks_own {rec : IdentityRecord S} (h : rec.idPubKey = env.self.idKeys.pk) : Speaks env o e (.identity rec) := by
  intro r hr
  cases hr
  exact .inl h

lemma setLocalNeighbors_speaks (self : PeerId) (l : List PeerId) (now : ℤ) (m : Membership) (x : Flood S)
    (hx : (m.setLocalNeighbors self l now).2.2 = some x) : Speaks env o e x.1 := by
  unfold Membership.setLocalNeighbors at hx
  extract_lets sorted r q at hx
  split_ifs at hx
  cases hx
  exact speaks_of_ne fun _ h => by cases h

lemma onRemoteRecord_speaks (self : PeerId) (rec : MembershipRecord) (fd : Option Ptr) (now : ℤ) (m : Membership)
    (x : Flood S) (hx : (m.onRemoteRecord self rec fd now).2.2 = some x) : Speaks env o e x.1 := by
  unfold Membership.onRemoteRecord at hx
  extract_lets m' r at hx
  split_ifs at hx
  cases hx
  exact speaks_of_ne fun _ h => by cases h

lemma tick_speaks (cfg : MeshConfig) (self : PeerId) (now : ℤ) (m : Membership) (x : Flood S)
    (hx : (m.tick cfg self now).2.2 = some x) : Speaks env o e x.1 := by
  unfold Membership.tick at hx
  extract_lets gone r q at hx
  split_ifs at hx
  all_goals
    cases hx
    exact speaks_of_ne fun _ h => by cases h

def RouterAct.Carries : RouterAct S → Prop
  | .deliverLocal _ _ => True
  | .flood f _ | .route _ f _ => ∃ d, f = .data d

lemma onData_carries (cfg : MeshConfig) (self : PeerId) (now : ℤ) (view : DataView) (fd : Option Ptr)
    (r : GossipRouter) : ∀ a ∈ (r.onData (S := S) cfg self now view fd).2, a.Carries := by
  intro a ha
  unfold GossipRouter.onData at ha
  extract_lets q at ha
  split_ifs at ha <;> simp only [List.append_nil, List.nil_append, List.singleton_append, List.mem_cons,
    List.not_mem_nil, or_false] at ha
  · rcases ha with rfl | rfl
    · trivial
    · exact ⟨_, rfl⟩
  · subst ha
    trivial
  · subst ha
    exact ⟨_, rfl⟩
  · subst ha
    trivial
  · subst ha
    exact ⟨_, rfl⟩

lemma broadcast_carries_data (cfg : MeshConfig) (self : PeerId) (now : ℤ) (payload : Bytes) (r : GossipRouter) :
    ∀ a ∈ (r.originateBroadcast (S := S) cfg self now payload).2, a.Carries := by
  intro a ha
  obtain rfl := List.mem_singleton.mp ha
  exact ⟨_, rfl⟩

lemma targeted_carries_data (cfg : MeshConfig) (self : PeerId) (now : ℤ) (dst : PeerId) (payload : Bytes)
    (r : GossipRouter) : ∀ a ∈ (r.originateTargeted (S := S) cfg self now dst payload).2, a.Carries := by
  intro a ha
  unfold GossipRouter.originateTargeted at ha
  split_ifs at ha
  · obtain rfl := List.mem_singleton.mp ha
    trivial
  · obtain rfl := List.mem_singleton.mp ha
    exact ⟨_, rfl⟩

end Frames

end Multimaster
