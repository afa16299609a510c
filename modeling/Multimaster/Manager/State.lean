import Multimaster.Basis.Dict
import Multimaster.Basis.Reorder
import Multimaster.Connection.Input
import Multimaster.Gossip.Router
import Multimaster.Gossip.Membership

/-! The fields of `peer_manager` and the accesses its member functions share. -/

namespace Multimaster

inductive PeerState where
  | discovered
  | connecting
  | connected
  | disconnected
  | lost
  deriving DecidableEq

structure PeerRecord where
  id : PeerId
  dialAddr : Addr := default
  haveAddr : Bool := false
  state : PeerState := .discovered
  lastSeen : ℤ := 0
  reconnectAttempts : ℕ := 0
  announced : Bool := false
  isStatic : Bool := false
  conn : Option Ptr := none

structure StaticTarget where
  host : String
  port : UInt16
  learnedId : Option PeerId := none
  attempts : ℕ := 0
  nextAttempt : ℤ := 0
  dialing : Option Ptr := none

inductive TimerKind where
  | tick
  | reap
  | reconnect (id : PeerId)
  | evictSweep (rearm : Bool)
  deriving DecidableEq

/-- `heap` holds the live connection objects, `conns` the owning pointers of `conns_` in
order. Two history fields: `strayed` records that a pointer to a freed connection was used, and
`stuck` that closing recursed deeper than its bound. -/
structure Node (S : Suite) where
  heap : Dict Ptr (PeerConnection S) := ∅
  conns : List Ptr := []
  records : Dict PeerId PeerRecord := ∅
  estab : Dict PeerId Ptr := ∅
  staticTargets : List StaticTarget := []
  staticDialConn : Dict Ptr ℕ := ∅
  names : Dict PeerId Bytes := ∅
  idVersions : Dict PeerId UInt64 := ∅
  selfIdVersion : UInt64
  lastIdFlood : ℤ := 0
  reap : List Ptr := []
  reapScheduled : Bool := false
  running : Bool := false
  router : GossipRouter
  membership : Membership
  timers : List (ℤ × TimerKind) := []
  notices : List Notice := []
  pos : ℕ
  strayed : Bool := false
  stuck : Bool := false

def PeerConnection.freed (S : Suite) : PeerConnection S where
  peerAddr := default
  inbound := false
  state := .dead
  localNonce := 0
  secure := false
  createdAt := 0
  lastRecv := 0
  lastSend := 0
  dead := true

namespace Node

variable {S : Suite}

def conn (n : Node S) (p : Ptr) : PeerConnection S := (n.heap.get? p).getD (.freed S)

def setConn (p : Ptr) (c : PeerConnection S) (n : Node S) : Node S :=
  { n with heap := if (n.heap.get? p).isSome then n.heap.insert p c else n.heap }

def deref (ps : List Ptr) (n : Node S) : Node S :=
  { n with strayed := n.strayed || ps.any (fun p => (n.heap.get? p).isNone) }

def bump (n : Node S) : Node S := { n with pos := n.pos + 1 }

def notify (l : List Notice) (n : Node S) : Node S := { n with notices := n.notices ++ l }

def setRecord (id : PeerId) (r : PeerRecord) (n : Node S) : Node S :=
  { n with records := n.records.insert id r }

def record (id : PeerId) (n : Node S) : PeerRecord := (n.records.get? id).getD { id }

def setTarget (i : ℕ) (t : StaticTarget) (n : Node S) : Node S :=
  { n with staticTargets := n.staticTargets.set i t }

/-- The address `malloc` picks: any that no live object has. -/
def freshPtr (env : Env S) (n : Node S) : Ptr :=
  if (n.heap.get? (env.oracle.malloc n.pos)).isNone then env.oracle.malloc n.pos
  else unused n.heap.keys

def addTimer (env : Env S) (delay : ℤ) (kind : TimerKind) (n : Node S) : Node S :=
  bump { n with timers := n.timers ++ [(env.oracle.clock n.pos + delay, kind)] }

def order {α : Type} (env : Env S) (n : Node S) (l : List α) : List α :=
  reorder (env.oracle.order n.pos) l

def emitConnectedSnapshot (env : Env S) (n : Node S) : Node S :=
  bump (n.notify [.connectedSnapshot (n.order env n.estab.keys)])

def emitKnownSnapshot (env : Env S) (n : Node S) : Node S :=
  bump (n.notify [.knownSnapshot (n.order env n.records.keys)])

def emitNamesSnapshot (n : Node S) : Node S :=
  n.notify [.namesSnapshot (n.names.toList.map fun e => (e.1, e.2))]

lemma conn_of_get? {n : Node S} {p : Ptr} {c : PeerConnection S} (h : n.heap.get? p = some c) :
    n.conn p = c := by
  rw [conn, h, Option.getD_some]

lemma get?_of_alive {n : Node S} {p : Ptr} (h : (n.conn p).dead = false) :
    n.heap.get? p = some (n.conn p) := by
  unfold conn at *
  cases hp : n.heap.get? p with
  | none =>
    rw [hp] at h
    cases h
  | some c => rfl

lemma get?_setConn (n : Node S) (p q : Ptr) (c : PeerConnection S) :
    (n.setConn p c).heap.get? q =
      if q = p ∧ (n.heap.get? p).isSome then some c else n.heap.get? q := by
  unfold setConn
  by_cases h : (n.heap.get? p).isSome
  · simp only [h, if_true, and_true]
    exact Dict.get?_insert n.heap p q c
  · simp only [h, and_false, if_false, Bool.false_eq_true]

lemma isSome_setConn (n : Node S) (p q : Ptr) (c : PeerConnection S) :
    ((n.setConn p c).heap.get? q).isSome = (n.heap.get? q).isSome := by
  rw [get?_setConn]
  split_ifs with h
  · rw [h.1, h.2, Option.isSome_some]
  · rfl

lemma conn_setConn (n : Node S) (p q : Ptr) (c : PeerConnection S) :
    (n.setConn p c).conn q = if q = p ∧ (n.heap.get? p).isSome then c else n.conn q := by
  rw [conn, get?_setConn]
  split_ifs <;> rfl

lemma conn_setConn_ne {n : Node S} {p q : Ptr} (c : PeerConnection S) (h : q ≠ p) :
    (n.setConn p c).conn q = n.conn q := by
  rw [conn_setConn, if_neg fun k => h k.1]

lemma get?_setConn_self {n : Node S} {p : Ptr} (c : PeerConnection S) (h : (n.heap.get? p).isSome) :
    (n.setConn p c).heap.get? p = some c := by
  rw [get?_setConn, if_pos ⟨rfl, h⟩]

lemma conn_setConn_self {n : Node S} {p : Ptr} (c : PeerConnection S) (h : (n.heap.get? p).isSome) :
    (n.setConn p c).conn p = c := by
  rw [conn_setConn, if_pos ⟨rfl, h⟩]

lemma setConn_setConn (n : Node S) (p : Ptr) (c d : PeerConnection S) :
    (n.setConn p c).setConn p d = n.setConn p d := by
  have h := isSome_setConn n p p c
  unfold setConn at h ⊢
  dsimp only at h ⊢
  rw [h]
  split_ifs
  · rw [Dict.insert_insert]
  · rfl

lemma deref_eq {n : Node S} {ps : List Ptr} (h : ∀ p ∈ ps, (n.heap.get? p).isSome) :
    n.deref ps = n := by
  have : ps.any (fun p => (n.heap.get? p).isNone) = false := by
    rw [List.any_eq_false]
    intro p hp hn
    rw [Option.isNone_iff_eq_none] at hn
    simpa [hn] using h p hp
  rw [deref, this, Bool.or_false]

lemma freshPtr_free (env : Env S) (n : Node S) : n.heap.get? (n.freshPtr env) = none := by
  by_cases h : (n.heap.get? (env.oracle.malloc n.pos)).isNone
  · rw [freshPtr, if_pos h]
    exact Option.isNone_iff_eq_none.mp h
  · rw [freshPtr, if_neg h, ← Option.not_isSome_iff_eq_none, ← Dict.mem_keys]
    exact unused_notMem n.heap.keys

end Node

variable {S : Suite}

/-- The surroundings of the connections of one node, given what closing one of them does. -/
def nodeSink (env : Env S) (closed : Ptr → Node S → Node S) : Sink S (Node S) where
  env := env
  conn := Node.conn
  setConn := Node.setConn
  pos := Node.pos
  bump := Node.bump
  onPeerClosed := closed
  reportError e n := n.notify [.onError e]

/-- `base << att`, which drops the bits beyond the 64 of a `long long`, and the cap. -/
def cappedDelay (cfg : MeshConfig) (attempts : ℕ) : ℤ :=
  let ms := (cfg.reconnectBase * 2 ^ min attempts 20).bmod (2 ^ 64)
  if ms > cfg.reconnectMax ∨ ms < 0 then cfg.reconnectMax else ms

def backoff (cfg : MeshConfig) (attempts random : ℕ) : ℤ :=
  let ms := cappedDelay cfg attempts
  ms + (random : ℤ) % (max 1 (ms / 5) + 1)

end Multimaster
