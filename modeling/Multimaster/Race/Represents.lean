import Multimaster.Race.Nodes

/-! When a node represents an end of the arena, and what its calls keep of that. -/

namespace Multimaster

variable {S : Suite} {ι : Type}

def Matches (id : PeerId) : Arena.Status → PeerConnection S → Prop
  | .pending, c => c.dead = false ∧ (c.state = .handshaking ∨ c.state = .awaitingConfirm)
  | .up, c => c.dead = false ∧ c.state = .established ∧ c.peerId = id
  | .closed, c => c.dead = true

lemma Matches.handled {id : PeerId} {t : Arena.Status} {c d : PeerConnection S} (h : Matches id t c)
    (hd : Handled c d) : Matches id t d := by
  cases t <;> simpa only [Matches, hd.dead, hd.state, hd.peerId] using h

structure Represents (R : Race S ι) (s : Bool) (n : Node S) (v : Arena.View ι) : Prop where
  owned : Owned n
  object : ∀ i, ∃ c, n.heap.get? (R.ptr s i) = some c ∧ c.inbound = (R.dialer i != s) ∧
    Matches (R.peer s) (v.status i) c
  table : n.estab.get? (R.peer s) = v.table.map (R.ptr s)

namespace Represents

variable {R : Race S ι} {s : Bool} {n m : Node S} {v : Arena.View ι}

lemma isSome (h : Represents R s n v) (i : ι) : (n.heap.get? (R.ptr s i)).isSome := by
  obtain ⟨c, hc, -⟩ := h.object i
  rw [hc, Option.isSome_some]

lemma congr (h : Represents R s n v) (hh : m.heap = n.heap) (he : m.estab = n.estab) :
    Represents R s m v where
  owned id p hp := by
    rw [hh]
    exact h.owned id p (he ▸ hp)
  object i := by
    rw [hh]
    exact h.object i
  table := by
    rw [he]
    exact h.table

lemma linkChanges {env : Env S} (h : Represents R s n v) (e : LinkChanges env n m)
    (hs : ∀ i, ¬ Failed m (R.ptr s i)) : Represents R s m v where
  owned := e.owned h.owned
  object i := by
    obtain ⟨c, hc, hin, hm⟩ := h.object i
    obtain ⟨d, hd⟩ := Option.isSome_iff_exists.mp (e.isSome (h.isSome i))
    have ht := e.spares (h.isSome i) (hs i)
    rw [Node.conn_of_get? hc, Node.conn_of_get? hd] at ht
    exact ⟨d, hd, (Kept.of_touch ht).inbound.trans hin, hm.handled (.of_kept (.of_touch ht))⟩
  table := by
    rw [← h.table]
    refine e.spares_estab fun p hp => ?_
    rw [h.table] at hp
    obtain ⟨i, -, rfl⟩ := Option.map_eq_some_iff.mp hp
    exact ⟨h.isSome i, hs i⟩

lemma bury {env : Env S} (h : Represents R s n v) (p : Ptr) : Represents R s (buryLater env p n) v :=
  h.congr (bury_field Node.heap (fun _ _ _ _ _ => rfl) n p)
    (bury_field Node.estab (fun _ _ _ _ _ => rfl) n p)

variable [DecidableEq ι]

lemma unlink (h : Represents R s n v) (env : Env S) {i : ι}
    (hi : v.table = some i → (n.conn (R.ptr s i)).peerId = R.peer s) :
    Represents R s (unlink env (R.ptr s i) n) (v.part (R.rules.sticky s) i) where
  owned := owned_unlink _ h.owned
  object j := by
    obtain ⟨c, hc, hin, hm⟩ := h.object j
    rw [unlink_heap, Node.get?_setConn]
    by_cases hj : j = i
    · subst hj
      refine ⟨_, if_pos ⟨rfl, h.isSome j⟩, ?_, ?_⟩
      · rw [Node.conn_of_get? hc]
        exact hin
      · simp [Arena.View.part, Matches, PeerConnection.killed]
    · have hne : R.ptr s j ≠ R.ptr s i := fun k => hj (R.injective s k)
      refine ⟨c, by rw [if_neg fun k => hne k.1, hc], hin, ?_⟩
      simpa only [Arena.View.part, Function.update_of_ne hj] using hm
  table := by
    have hkey : n.estab.get? (R.peer s) = some (R.ptr s i) ↔ v.table = some i := by
      rw [h.table]
      constructor
      · intro hk
        obtain ⟨j, hj, hp⟩ := Option.map_eq_some_iff.mp hk
        rw [hj, R.injective s hp]
      · intro hk
        rw [hk, Option.map_some]
    rw [unlink_estab]
    simp only [Arena.View.part, Race.rules]
    by_cases ht : v.table = some i
    · rw [hi ht]
      by_cases hz : (R.peer s).isZero = false
      · simp [ht, hz, hkey.mpr ht, Dict.get?_erase]
      · simp [hz, h.table]
    · have hsame : (if (n.conn (R.ptr s i)).peerId.isZero = false ∧
          n.estab.get? (n.conn (R.ptr s i)).peerId = some (R.ptr s i) then
            n.estab.erase (n.conn (R.ptr s i)).peerId else n.estab).get? (R.peer s) =
          n.estab.get? (R.peer s) := by
        split_ifs with hc
        · rw [Dict.get?_erase, if_neg]
          intro hid
          rw [← hid] at hc
          exact ht (hkey.mp hc.2)
        · rfl
      rw [hsame, h.table]
      simp [ht]

lemma closed {env : Env S} (h : Represents R s n v) {i : ι} (hi : v.table ≠ some i)
    (hc : Closed env (R.ptr s i) n m) (hs : ∀ i, ¬ Failed m (R.ptr s i)) :
    Represents R s m (v.part (R.rules.sticky s) i) := by
  obtain ⟨o, ho, ⟨hd, rfl⟩ | ⟨-, q, hq, rfl⟩⟩ := hc
  · -- the connection was dead already
    have h₁ := h.linkChanges ho hs
    refine ⟨h₁.owned, fun j => ?_, ?_⟩
    · obtain ⟨c, hc, hin, hm⟩ := h₁.object j
      refine ⟨c, hc, hin, ?_⟩
      by_cases hj : j = i
      · subst hj
        rw [Node.conn_of_get? hc] at hd
        simpa only [Arena.View.part, Function.update_self, Matches] using hd
      · simpa only [Arena.View.part, Function.update_of_ne hj] using hm
    · simp only [Arena.View.part, hi, false_and, if_false]
      exact h₁.table
  · have hsome (j : ι) : ((Multimaster.unlink env (R.ptr s i) o).heap.get? (R.ptr s j)).isSome :=
      (unlink_isSome _ _ _ _).trans (ho.isSome (h.isSome j))
    have hq' (j : ι) : ¬ Failed q (R.ptr s j) := fun k => hs j (failed_bury k)
    have h₁ := h.linkChanges ho fun j k => hq' j (hq.failed (hsome j) (failed_unlink k))
    exact ((h₁.unlink env fun k => absurd k hi).linkChanges hq hq').bury _

end Represents

section Dispatch

variable {env : Env S} {k : ℕ} {n : Node S} {p : Ptr} {c : PeerConnection S}

lemma establish_eq (hs : (n.heap.get? p).isSome) (d : PeerConnection S) (h : Hello S) :
    (establish (managerListener env k) p h (n.setConn p d)).2 =
      onPeerHandshake (managerSink env k) p h (n.setConn p d.completed) := by
  change onPeerHandshake (managerSink env k) p h
    ((n.setConn p d).setConn p ((n.setConn p d).conn p).completed) = _
  rw [Node.conn_setConn_self d hs, Node.setConn_setConn]

lemma dispatch_finishes (hc : n.heap.get? p = some c) {id : PeerId} {f : Frame S}
    (hf : Finishes env.self c id f) (consumed : ℕ) (src : Source) :
    ∃ d h, d.state = .established ∧ d.dead = c.dead ∧ d.inbound = c.inbound ∧ d.peerId = id ∧
      (dispatch (managerListener env k) p f consumed src n).2 =
        onPeerHandshake (managerSink env k) p h (n.bump.setConn p d) := by
  have hs : (n.bump.heap.get? p).isSome := by
    rw [show n.bump.heap = n.heap from rfl, hc, Option.isSome_some]
  have hst : stamped env n p f src = { c with
      lastRecv := env.oracle.clock n.pos, dispatched := c.dispatched ++ [(src, f)] } := by
    rw [stamped, Node.conn_of_get? hc]
  have hcon : (n.bump.setConn p (stamped env n p f src)).conn p = stamped env n p f src :=
    Node.conn_setConn_self _ hs
  have hsome : ((n.bump.setConn p (stamped env n p f src)).heap.get? p).isSome := by
    rw [Node.isSome_setConn]
    exact hs
  cases hf with
  | hello ack h ha hp hi =>
    let d := consume src consumed { stamped env n p (.hello ack h) src with
      peerId := h.nodeId, peerListenPort := h.tcpListenPort, peerNonce := h.nonce }
    have hd := consume_handled src consumed { stamped env n p (.hello ack h) src with
      peerId := h.nodeId, peerListenPort := h.tcpListenPort, peerNonce := h.nonce }
    refine ⟨d.completed, h, rfl, ?_, ?_, ?_, ?_⟩
    · exact hd.dead.trans (by rw [hst])
    · exact hd.inbound.trans (by rw [hst])
    · exact hd.peerId.trans hi
    · change (handleHello (managerListener env k) p h consumed src
        (n.bump.setConn p (stamped env n p (.hello ack h) src))).2 = _
      unfold handleHello
      extract_lets own c' w
      have hc' : c' = stamped env n p (.hello ack h) src := hcon
      have hw : w = (n.bump.setConn p (stamped env n p (.hello ack h) src)).setConn p d :=
        congrArg (fun c : PeerConnection S => (n.bump.setConn p _).setConn p (consume src consumed { c with
          peerId := h.nodeId, peerListenPort := h.tcpListenPort, peerNonce := h.nonce })) hcon
      have hstate : c'.state = .handshaking := by rw [hc', hst]; exact ha.state
      have hsec : c'.secure = false := by rw [hc', hst]; exact hp
      have hmode : h.secure = c'.secure := by rw [hsec, ha.secure, hp]
      rw [if_neg (not_not.mpr hstate), if_neg (by rw [not_or, not_not, not_not]; exact ⟨ha.version, ha.group⟩),
        if_neg (not_not.mpr hmode), if_pos (by rw [hsec]; rfl), hw, establish_eq hsome, Node.setConn_setConn]
  | confirm tag sig hs hp hi ht hv =>
    let d := consume src consumed (stamped env n p (.authConfirm tag sig) src)
    have hd := consume_handled src consumed (stamped env n p (.authConfirm tag sig) src)
    refine ⟨d.completed, (stamped env n p (.authConfirm tag sig) src).peerHello, rfl, ?_, ?_, ?_, ?_⟩
    · exact hd.dead.trans (by rw [hst])
    · exact hd.inbound.trans (by rw [hst])
    · exact hd.peerId.trans (by rw [hst]; exact hi)
    · change (handleAuthConfirm (managerListener env k) p tag sig consumed src
        (n.bump.setConn p (stamped env n p (.authConfirm tag sig) src))).2 = _
      unfold handleAuthConfirm
      extract_lets c' w
      have hc' : c' = stamped env n p (.authConfirm tag sig) src := hcon
      have hw : w = (n.bump.setConn p (stamped env n p (.authConfirm tag sig) src)).setConn p d :=
        congrArg (fun c => Node.setConn p (consume src consumed c) _) hcon
      have hstate : c'.state = .awaitingConfirm := by rw [hc', hst]; exact hs
      have hsec : c'.secure = true := by rw [hc', hst]; exact hp
      have htag : tag = c'.expectedPeerTag := by rw [hc', hst]; exact ht
      have hver : (if c'.useIdentity then identityFailure (managerListener env k).env.self c' sig else none) =
          none := by
        rw [hc', hst]
        exact hv
      rw [if_neg (by simp [hstate, hsec]), if_neg (not_not.mpr htag), hver, hw]
      dsimp only
      rw [establish_eq hsome, Node.setConn_setConn, hc']

variable (env) in
lemma dispatch_goodbye (hc : n.heap.get? p = some c) (hd : c.dead = false) (hb : bound n < k)
    (ho : Owned n) (consumed : ℕ) (src : Source) :
    ∃ d m, d.state = c.state ∧ d.dead = c.dead ∧ d.inbound = c.inbound ∧ d.peerId = c.peerId ∧
      LinkChanges env (unlink env p (n.bump.setConn p d)) m ∧
      (dispatch (managerListener env k) p .goodbye consumed src n).2 = buryLater env p m := by
  have hs : (n.bump.heap.get? p).isSome := by
    rw [show n.bump.heap = n.heap from rfl, hc, Option.isSome_some]
  have hst : stamped env n p .goodbye src = { c with
      lastRecv := env.oracle.clock n.pos, dispatched := c.dispatched ++ [(src, .goodbye)] } := by
    rw [stamped, Node.conn_of_get? hc]
  let d₁ := consume src consumed (stamped env n p .goodbye src)
  let d : PeerConnection S := { d₁ with failure := some (.socket, 0, "peer said goodbye") }
  have hd₁ := consume_handled src consumed (stamped env n p .goodbye src)
  have hdead : d.dead = c.dead := hd₁.dead.trans (by rw [hst])
  have hcon : (n.bump.setConn p d₁).conn p = d₁ := Node.conn_setConn_self d₁ hs
  have heq : (dispatch (managerListener env k) p .goodbye consumed src n).2 =
      markDead (managerSink env k) p (n.bump.setConn p d) := by
    change fail (managerSink env k) p .socket 0 "peer said goodbye"
      ((n.bump.setConn p (stamped env n p .goodbye src)).setConn p
        (consume src consumed ((n.bump.setConn p (stamped env n p .goodbye src)).conn p))) = _
    rw [Node.conn_setConn_self _ hs, Node.setConn_setConn]
    unfold fail
    refine (if_neg ?_).trans ?_
    · rw [show (managerSink env k).conn (n.bump.setConn p d₁) p = d₁ from hcon]
      exact ne_true_of_eq_false (hdead.trans hd)
    · change markDead (managerSink env k) p ((n.bump.setConn p d₁).setConn p
        { (n.bump.setConn p d₁).conn p with failure := some (.socket, 0, "peer said goodbye") }) = _
      rw [hcon, Node.setConn_setConn]
  have hcon' : (n.bump.setConn p d).conn p = d := Node.conn_setConn_self d hs
  have ho' : Owned (n.bump.setConn p d) := by
    intro id q hq
    rw [Node.isSome_setConn]
    exact ho id q hq
  obtain ⟨m, hm, he⟩ := markDead_spec env p (n := n.bump.setConn p d) hb ho'
    (by rw [hcon']; exact hdead.trans hd)
  exact ⟨d, m, hd₁.state.trans (by rw [hst]), hdead, hd₁.inbound.trans (by rw [hst]),
    hd₁.peerId.trans (by rw [hst]), hm, heq.trans he⟩

end Dispatch

end Multimaster
