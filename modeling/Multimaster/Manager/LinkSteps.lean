import Multimaster.Manager.Containment
import Multimaster.Manager.Events

/-! What one event can do to the links of a node, step by step. The invariants of runs about links are checked for each
step. -/

namespace Multimaster

variable {S : Suite}

def PeerConnection.unread (c : PeerConnection S) : PeerConnection S :=
  { c with
    inBuf := [], plainBuf := [], plainRead := 0, opened := [], heard := [], dispatched := []
    lastRecv := 0 }

def Handled (c d : PeerConnection S) : Prop := Kept c.unread d.unread

namespace Handled

variable {c d e : PeerConnection S}

lemma of_kept (h : Kept c d) : Handled c d := by
  have := congrArg PeerConnection.unread h
  exact this

lemma dead (h : Handled c d) : d.dead = c.dead := Kept.dead (c := c.unread) (d := d.unread) h
lemma state (h : Handled c d) : d.state = c.state := Kept.state (c := c.unread) (d := d.unread) h
lemma peerId (h : Handled c d) : d.peerId = c.peerId := Kept.peerId (c := c.unread) (d := d.unread) h
lemma inbound (h : Handled c d) : d.inbound = c.inbound :=
  Kept.inbound (c := c.unread) (d := d.unread) h

end Handled

structure Quiet (n m : Node S) : Prop where
  heap : m.heap = n.heap
  conns : m.conns = n.conns
  records : m.records = n.records
  estab : m.estab = n.estab
  staticTargets : m.staticTargets = n.staticTargets
  staticDialConn : m.staticDialConn = n.staticDialConn
  reap : m.reap = n.reap
  running : m.running = n.running
  strayed : m.strayed = n.strayed
  stuck : m.stuck = n.stuck
  neighbors : m.membership.selfNeighbors = n.membership.selfNeighbors
  notices : ∃ l, m.notices = n.notices ++ l ∧ ∀ x ∈ l, x.aside = true

structure License (S : Suite) where
  hello : Node S → Ptr → Hello S → Prop
  complete : Node S → Ptr → Prop
  clear : Prop

structure Refreshed (n : Node S) (id : PeerId) (r : PeerRecord) : Prop where
  key : r.id = id
  conn : r.conn = (n.record id).conn
  state : r.state = (n.record id).state ∨ (n.record id).state = .lost ∧ r.state = .disconnected

inductive LinkStep (env : Env S) (k : ℕ) (A : License S) : Node S → Node S → Prop where
  | linkChanges {n m : Node S} (h : LinkChanges env n m) : LinkStep env k A n m
  | close {n m : Node S} (p : Ptr) (hp : (n.conn p).dead = false) (h : LinkChanges env (unlink env p n) m) :
      LinkStep env k A n (buryLater env p m)
  | quiet {n m : Node S} (h : Quiet n m) : LinkStep env k A n m
  | input (n : Node S) (p : Ptr) (d : PeerConnection S) (h : Handled (n.conn p) d) :
      LinkStep env k A n (n.setConn p d)
  | handshaking (n : Node S) (p : Ptr) (hs : (n.conn p).state = .connectingOut) :
      LinkStep env k A n (n.setConn p { n.conn p with state := .handshaking })
  | hello (n : Node S) (p : Ptr) (h : Hello S) (d : PeerConnection S)
      (hs : (n.conn p).state = .handshaking) (ha : A.hello n p h)
      (hd : Handled { n.conn p with
        peerId := h.nodeId, peerListenPort := h.tcpListenPort, peerNonce := h.nonce } d) :
      LinkStep env k A n (n.setConn p d)
  | await (n : Node S) (p : Ptr) (h : Hello S) (d : PeerConnection S)
      (hs : (n.conn p).state = .handshaking) (hi : (n.conn p).peerId = h.nodeId) (ha : A.hello n p h)
      (hd : d.state = .awaitingConfirm ∧ d.dead = (n.conn p).dead ∧ d.peerId = (n.conn p).peerId ∧
        d.inbound = (n.conn p).inbound) :
      LinkStep env k A n (n.setConn p d)
  | establish (n : Node S) (p : Ptr) (h : Hello S) (hp : (n.conn p).dead = false)
      (hs : (n.conn p).state = .handshaking ∧ (n.conn p).peerId = h.nodeId ∧ A.hello n p h ∨
        (n.conn p).state = .awaitingConfirm)
      (ha : A.complete n p) (hk : n.records.keys.length + 1 < k) :
      LinkStep env k A n (onPeerHandshake (managerSink env k) p h
        (n.setConn p { n.conn p with state := .established }))
  | refresh (n : Node S) (id : PeerId) (r : PeerRecord) (hr : Refreshed n id r) :
      LinkStep env k A n (n.setRecord id r)
  | lose (n : Node S) (id : PeerId)
      (hr : ∀ r, n.records.get? id = some r → r.state ≠ .connected ∧ r.isStatic = false) :
      LinkStep env k A n { n with records := n.records.erase id }
  | dial (n : Node S) (id : PeerId) (r : PeerRecord) (hr : n.records.get? id = some r)
      (hi : r.id ≠ env.self.nodeId) (hs : r.state ≠ .connected) (hc : r.state ≠ .connecting) :
      LinkStep env k A n ((newOutbound env r.dialAddr n).2.setRecord id
        { r with state := .connecting, conn := some (newOutbound env r.dialAddr n).1 })
  | seed (n : Node S) (addr : Addr) : LinkStep env k A n (newOutbound env addr n).2
  | accept {n m : Node S} (p : Ptr) (c : PeerConnection S) (hp : n.heap.get? p = none)
      (hs : c.state = .handshaking) (hd : c.dead = false) (hi : c.peerId = Octets.zero 16)
      (h : LinkChanges env { n with heap := n.heap.insert p c } m) :
      LinkStep env k A n { m with conns := m.conns ++ [p] }
  | reap (n : Node S) : LinkStep env k A n (reapDead n)
  | halt (n : Node S) : LinkStep env k A n { n with running := false }
  | clear (n : Node S) (m : Membership) (ha : A.clear) : LinkStep env k A n { n with
      estab := ∅, heap := ∅, conns := [], records := ∅, staticTargets := [], staticDialConn := ∅
      membership := m, reap := [] }

lemma LinkStep.mono {env : Env S} {k : ℕ} {A B : License S} (hello : ∀ {n p h}, A.hello n p h → B.hello n p h)
    (complete : ∀ {n p}, A.complete n p → B.complete n p) (clear : A.clear → B.clear) {n m : Node S}
    (h : LinkStep env k A n m) :
    LinkStep env k B n m := by
  cases h with
  | linkChanges h => exact .linkChanges h
  | close p hp h => exact .close p hp h
  | quiet h => exact .quiet h
  | input p d h => exact .input n p d h
  | handshaking p hs => exact .handshaking n p hs
  | hello p h d hs ha hd => exact .hello n p h d hs (hello ha) hd
  | await p h d hs hi ha hd => exact .await n p h d hs hi (hello ha) hd
  | establish p h hp hs ha hk =>
    exact .establish n p h hp (hs.imp_left fun ⟨a, b, c⟩ => ⟨a, b, hello c⟩) (complete ha) hk
  | refresh id r hr => exact .refresh n id r hr
  | lose id hr => exact .lose n id hr
  | dial id r hr hi hs hc => exact .dial n id r hr hi hs hc
  | seed addr => exact .seed n addr
  | accept p c hp hs hd hi h => exact .accept p c hp hs hd hi h
  | reap => exact .reap n
  | halt => exact .halt n
  | clear m ha => exact .clear n m (clear ha)

abbrev LinkSteps (env : Env S) (k : ℕ) (A : License S) : Node S → Node S → Prop :=
  Relation.ReflTransGen (LinkStep env k A)

lemma LinkSteps.preserves {env : Env S} {k : ℕ} {A : License S} {I : Node S → Prop}
    (hI : ∀ {n m}, LinkStep env k A n m → I n → I m) {n m : Node S} (h : LinkSteps env k A n m) (hn : I n) :
    I m := by
  induction h with
  | refl => exact hn
  | tail _ h ih => exact hI h ih

end Multimaster
