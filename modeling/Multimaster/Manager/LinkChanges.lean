import Multimaster.Connection.Admitting
import Multimaster.Manager.Closing

/-! What sending, closing and redialing can do to the links of a node: `LinkChange` lists the elementary changes,
`LinkChanges` the whole of one call together with the closes it re-enters.

A node is looked at from five sides, and each side has a relation that says how it changes and leaves the others open:
the links here, the books (`Node.books`), the plan of dials, timers and queued frames (`Node.plan`), the desk of the
router and the membership (`Node.desk`) and the gossip it knows (`Node.gossip`). On each side a change is made inside a
call of a connection, and a step is part of an event of the loop; `LinkCall`, `BookCall` and `PlanCall` are whole calls
with enough depth, `LinkRun`, `BookRun` and `PlanRun` whole member functions. -/

namespace Multimaster

variable {S : Suite}

def commitNeighbors (env : Env S) (n : Node S) : Node S :=
  let r : Membership × List Notice × Option (Flood S) :=
    n.membership.setLocalNeighbors env.self.nodeId (n.order env n.estab.keys) (env.oracle.clock n.pos)
  { n.bump with membership := r.1 }.notify r.2.1

lemma commit_field {α : Type} (f : Node S → α)
    (hf : ∀ n m l k, f { n with membership := m, notices := l, pos := k } = f n) (env : Env S)
    (n : Node S) : f (commitNeighbors env n) = f n := hf n _ _ _

def ownerOf (env : Env S) (p : Ptr) (n : Node S) : Option (PeerId × PeerRecord) :=
  (owningRecord env p n).bind fun id =>
    (n.records.get? id).bind fun r => if r.conn = some p then some (id, r) else none

def unlinkBase (p : Ptr) (n : Node S) : Node S :=
  detachEstab p (releaseDial p (n.setConn p (n.conn p).killed))

def unlink (env : Env S) (p : Ptr) (n : Node S) : Node S :=
  let m := unlinkBase p n
  match ownerOf env p m with
  | none => m.bump
  | some (id, r) =>
    let m := m.bump.setRecord id { r with conn := none, state := .disconnected }
    if r.state = .connected then
      commitNeighbors env ((m.notify [.peerDisconnected r.id]).emitConnectedSnapshot env)
    else m

def buryLater (env : Env S) (p : Ptr) (n : Node S) : Node S :=
  scheduleReap env { n with reap := n.reap ++ [p] }

section Unlink

variable (env : Env S) (p : Ptr) (n : Node S)

def Node.core (n : Node S) : Node S :=
  { n with records := ∅, membership := { selfVersion := 0 }, notices := [], pos := 0 }

lemma unlink_core : (unlink env p n).core = (unlinkBase p n).core := by
  unfold unlink
  dsimp only
  split
  · rfl
  · split_ifs <;> rfl

variable {env p n} in
lemma unlink_field {α : Type} (f : Node S → α) (hf : ∀ n, f n.core = f n) :
    f (unlink env p n) = f (unlinkBase p n) := by
  rw [← hf, ← hf (unlinkBase p n)]
  exact congrArg f (unlink_core env p n)

lemma unlink_heap : (unlink env p n).heap = (n.setConn p (n.conn p).killed).heap :=
  unlink_field Node.heap fun _ => rfl

lemma unlink_conns : (unlink env p n).conns = n.conns := unlink_field Node.conns fun _ => rfl

lemma unlink_reap : (unlink env p n).reap = n.reap := unlink_field Node.reap fun _ => rfl

lemma unlink_strayed : (unlink env p n).strayed = n.strayed := unlink_field Node.strayed fun _ => rfl

lemma unlink_stuck : (unlink env p n).stuck = n.stuck := unlink_field Node.stuck fun _ => rfl

lemma unlink_running : (unlink env p n).running = n.running := unlink_field Node.running fun _ => rfl

lemma unlink_isSome (q : Ptr) : ((unlink env p n).heap.get? q).isSome = (n.heap.get? q).isSome := by
  rw [unlink_heap, Node.isSome_setConn]

lemma unlink_conn (q : Ptr) :
    (unlink env p n).conn q = (n.setConn p (n.conn p).killed).conn q := by
  rw [Node.conn, Node.conn, unlink_heap]

lemma killed_peerId : ((n.setConn p (n.conn p).killed).conn p).peerId = (n.conn p).peerId := by
  rw [Node.conn_setConn]
  split_ifs <;> rfl

lemma unlink_estab : (unlink env p n).estab =
    if (n.conn p).peerId.isZero = false ∧ n.estab.get? (n.conn p).peerId = some p then
      n.estab.erase (n.conn p).peerId else n.estab := by
  have h : (releaseDial p (n.setConn p (n.conn p).killed)).conn p =
      (n.setConn p (n.conn p).killed).conn p := rfl
  rw [show (unlink env p n).estab = (unlinkBase p n).estab from unlink_field Node.estab fun _ => rfl]
  simp only [unlinkBase, detachEstab, h, killed_peerId]
  simp [releaseDial, Node.setConn]

variable {env p n}

lemma ownerOf_spec {id : PeerId} {r : PeerRecord} (h : ownerOf env p n = some (id, r)) :
    n.records.get? id = some r ∧ r.conn = some p := by
  obtain ⟨i, _, hi⟩ := Option.bind_eq_some_iff.mp h
  obtain ⟨q, hq, hr⟩ := Option.bind_eq_some_iff.mp hi
  split_ifs at hr with hc
  obtain ⟨rfl, rfl⟩ := Prod.mk.inj (Option.some.inj hr)
  exact ⟨hq, hc⟩

lemma unlink_of_none (h : ownerOf env p (unlinkBase p n) = none) :
    unlink env p n = (unlinkBase p n).bump := by
  simp only [unlink, h]

lemma unlink_of_idle {id : PeerId} {r : PeerRecord}
    (h : ownerOf env p (unlinkBase p n) = some (id, r)) (hr : r.state ≠ .connected) :
    unlink env p n =
      (unlinkBase p n).bump.setRecord id { r with conn := none, state := .disconnected } := by
  simp only [unlink, h, hr, if_false]

lemma unlink_of_linked {id : PeerId} {r : PeerRecord}
    (h : ownerOf env p (unlinkBase p n) = some (id, r)) (hr : r.state = .connected) :
    unlink env p n = commitNeighbors env
      ((((unlinkBase p n).bump.setRecord id { r with conn := none, state := .disconnected }).notify
        [.peerDisconnected r.id]).emitConnectedSnapshot env) := by
  simp only [unlink, h, hr, if_true]

lemma unlink_records : (unlink env p n).records =
    match ownerOf env p (unlinkBase p n) with
    | none => n.records
    | some (id, r) => n.records.insert id { r with conn := none, state := .disconnected } := by
  cases h : ownerOf env p (unlinkBase p n) with
  | none =>
    rw [unlink_of_none h]
    rfl
  | some o =>
    by_cases hr : o.2.state = .connected
    · rw [unlink_of_linked h hr]
      rfl
    · rw [unlink_of_idle h hr]
      rfl

end Unlink

inductive LinkChange (env : Env S) : Node S → Node S → Prop where
  | bump (n : Node S) : LinkChange env n n.bump
  | touch (n : Node S) (p : Ptr) (c : PeerConnection S) (h : Touch (n.conn p) c) :
      LinkChange env n (n.setConn p c)
  | doom (n : Node S) (p : Ptr) (f : ErrorCategory × ℤ × String) (hp : (n.conn p).dead = false)
      (hf : f.2.2 ≠ "peer said goodbye") :
      LinkChange env n (n.setConn p { n.conn p with failure := some f })
  | report (n : Node S) (e : Error) : LinkChange env n (n.notify [.onError e])
  | reconnect (n : Node S) (id : PeerId) : LinkChange env n (scheduleReconnect env id n)
  | settle (n : Node S) (i : ℕ) (t : StaticTarget) (ht : n.staticTargets[i]? = some t)
      (hu : targetUp n t = true) : LinkChange env n (n.setTarget i { t with attempts := 0 })
  | arm (n : Node S) (i : ℕ) (t : StaticTarget) (now delay : ℤ) (hr : n.running = true)
      (ht : n.staticTargets[i]? = some t) (hu : targetUp n t = false) (hd : t.dialing = none)
      (hn : t.nextAttempt ≤ now) :
      LinkChange env n (n.setTarget i { t with nextAttempt := now + delay, attempts := t.attempts + 1 })
  | dial (n : Node S) (i : ℕ) (t : StaticTarget) (addr : Addr) (hr : n.running = true)
      (ht : n.staticTargets[i]? = some t) (hu : targetUp n t = false) (hd : t.dialing = none) :
      LinkChange env n (openStatic env i t addr n).2

def Doomed (n : Node S) (p : Ptr) : Prop :=
  (n.conn p).dead = false ∧ ∃ f, (n.conn p).failure = some f ∧ f.2.2 ≠ "peer said goodbye"

inductive LinkChanges (env : Env S) : Node S → Node S → Prop where
  | refl (n : Node S) : LinkChanges env n n
  | head {n m o : Node S} (h : LinkChange env n m) (t : LinkChanges env m o) : LinkChanges env n o
  | close {n m o : Node S} (p : Ptr) (hp : Doomed n p) (i : LinkChanges env (unlink env p n) m)
      (t : LinkChanges env (buryLater env p m) o) : LinkChanges env n o

namespace LinkChanges

variable {env : Env S} {n m o : Node S}

lemma trans (h : LinkChanges env n m) (k : LinkChanges env m o) : LinkChanges env n o := by
  induction h with
  | refl => exact k
  | head h _ ih => exact .head h (ih k)
  | close p hp i _ _ ih => exact .close p hp i (ih k)

lemma single (h : LinkChange env n m) : LinkChanges env n m := .head h (.refl m)

end LinkChanges

end Multimaster
