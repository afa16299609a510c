import Multimaster.Manager.Learning

/-! Which frames bring a name. -/

namespace Multimaster

variable {S : Suite}
variable {env : Env S} {k : ℕ} {V : PeerId → Bytes → Prop}

section Input

variable {n : Node S}

lemma modify_gossipSteps (p : Ptr) {f : PeerConnection S → PeerConnection S}
    (hf : ∀ c, ((f c).secure, (f c).state, (f c).peerHello, (f c).useIdentity) =
      (c.secure, c.state, c.peerHello, c.useIdentity)) (n : Node S) :
    GossipSteps env n ((managerListener env k).modify p f n) := GossipSteps.modify p hf n

lemma consume_gossipSteps (p : Ptr) (src : Source) (consumed : ℕ) (n : Node S) :
    GossipSteps env n ((managerListener env k).modify p (consume src consumed) n) := by
  refine modify_gossipSteps p (fun c => ?_) n
  cases src <;> rfl

lemma establish_learns {p : Ptr} {h : Hello S} (hV : h.hasIdentity = true → V (n.conn p).peerId h.nodeName) :
    Learns env V n (establish (managerListener env k) p h n).2 := by
  unfold establish
  extract_lets m o
  have hm : GossipSteps env n m := .single (.set n p _ ⟨rfl, .inr ConnState.noConfusion, rfl, rfl⟩)
  refine hm.learns.trans (onPeerHandshake_learns fun hid => ?_)
  have hpid : (m.conn p).peerId = (n.conn p).peerId := by
    rw [show m = n.setConn p _ from rfl, Node.conn_setConn]
    split_ifs <;> rfl
  rw [hpid]
  exact hV hid

lemma awaitConfirm_learns (p : Ptr) (h : Hello S) (hr : HandshakeResult S) (n : Node S) :
    Learns env V n (awaitConfirm (managerListener env k) p h hr n).2 := by
  unfold awaitConfirm
  extract_lets self useIdentity m o
  have hm : Learns env V n m := ⟨fun hk => hk.set rfl fun _ => rfl, id, fun _ _ h => .inl h⟩
  exact hm.trans ((respects_gossipSteps (closing_gossipSteps env k)).transmit p _ _ m).learns

def Proven (env : Env S) (c : PeerConnection S) (sig : S.Block 64) : Prop :=
  idFromIdentity c.peerHello.idPubKey = c.peerId ∧
    (env.self.trustedKeys ≠ [] → c.peerHello.idPubKey ∈ env.self.trustedKeys) ∧
    S.verify (idTranscript c.peerHello.ephPubKey c.ephKeys.pk c.peerHello.nodeName) sig c.peerHello.idPubKey = true

inductive Brings (env : Env S) (c : PeerConnection S) : Frame S → PeerId → Bytes → Prop where
  | claimed (inbound : Bool) (h : Hello S) (hs : c.secure = false) (hid : h.hasIdentity = true) :
      Brings env c (.hello inbound h) h.nodeId h.nodeName
  | unsigned (tag : S.Block 32) (sig : Option (S.Block 64)) (hs : c.state = .awaitingConfirm)
      (hu : c.useIdentity = false) (hid : c.peerHello.hasIdentity = true) :
      Brings env c (.authConfirm tag sig) c.peerId c.peerHello.nodeName
  | proven (tag : S.Block 32) (sig : S.Block 64) (h : Proven env c sig) :
      Brings env c (.authConfirm tag (some sig)) c.peerId c.peerHello.nodeName
  | record (rec : IdentityRecord S) (h : Accredited env rec) :
      Brings env c (.identity rec) (idFromIdentity rec.idPubKey) rec.name

lemma Brings.of_stamp {c : PeerConnection S} {now : ℤ} {l : List (Source × Frame S)} {f : Frame S} {id : PeerId}
    {s : Bytes} (h : Brings env { c with lastRecv := now, dispatched := l } f id s) : Brings env c f id s := by
  cases h with
  | claimed b h hs hid => exact .claimed b h hs hid
  | unsigned tag sig hs hu hid => exact .unsigned (c := c) tag sig hs hu hid
  | proven tag sig h => exact .proven (c := c) tag sig h
  | record rec h => exact .record rec h

lemma handleHello_learns {p : Ptr} (hp : (n.heap.get? p).isSome) {b : Bool} {h : Hello S} (consumed : ℕ) (src : Source)
    (hV : ∀ id s, Brings env (n.conn p) (.hello b h) id s → V id s) :
    Learns env V n (handleHello (managerListener env k) p h consumed src n).2 := by
  have hC := closing_gossipSteps env k
  unfold handleHello
  extract_lets self c m
  have hm : Learns env V n m := by
    refine GossipSteps.learns (modify_gossipSteps p (fun c => ?_) n)
    cases src <;> rfl
  split_ifs with _ _ _ hplain
  · exact (consume_gossipSteps p src consumed n).learns
  · exact (fail_gossipSteps hC p _ _ _ n).learns
  · exact (fail_gossipSteps hC p _ _ _ n).learns
  · have hpid : (m.conn p).peerId = h.nodeId := by
      rw [show m = n.setConn p _ from rfl, Node.conn_setConn_self _ hp]
      cases src <;> rfl
    refine hm.trans (establish_learns fun hid => ?_)
    rw [hpid]
    have hs : c.secure = false := by simpa using hplain
    exact hV _ _ (.claimed b h hs hid)
  · exact hm.trans (fail_gossipSteps hC p _ _ _ m).learns
  · split
    · exact hm.trans (fail_gossipSteps hC p _ _ _ m).learns
    · exact hm.trans (awaitConfirm_learns p h _ m)

lemma handleAuthConfirm_learns {p : Ptr} {tag : S.Block 32} {sig : Option (S.Block 64)} (consumed : ℕ) (src : Source)
    (hV : ∀ id s, Brings env (n.conn p) (.authConfirm tag sig) id s → V id s) :
    Learns env V n (handleAuthConfirm (managerListener env k) p tag sig consumed src n).2 := by
  have hC := closing_gossipSteps env k
  unfold handleAuthConfirm
  extract_lets c m
  have hm : Learns env V n m := (consume_gossipSteps p src consumed n).learns
  split_ifs with hst htag huse
  · exact (fail_gossipSteps hC p _ _ _ n).learns
  · exact hm.trans (fail_gossipSteps hC p _ _ _ m).learns
  all_goals
    have hst : c.secure = true ∧ c.state = .awaitingConfirm := by simpa using hst
    have hpid : (m.conn p).peerId = c.peerId := by
      rw [show m = n.setConn p (consume src consumed c) from rfl, Node.conn_setConn]
      split_ifs
      · cases src <;> rfl
      · rfl
  · split
    · exact hm.trans (fail_gossipSteps hC p _ _ _ m).learns
    · next hnone =>
      obtain ⟨s, rfl, hkey, hver, htrust⟩ := identityFailure_none hnone
      refine hm.trans (establish_learns fun _ => ?_)
      rw [hpid]
      exact hV _ _ (.proven tag s ⟨hkey, fun ht => htrust.resolve_left ht, hver⟩)
  · refine hm.trans (establish_learns fun hid => ?_)
    rw [hpid]
    exact hV _ _ (.unsigned tag sig hst.2 (eq_false_of_ne_true huse) hid)

lemma dispatch_learns {p : Ptr} (hp : (n.heap.get? p).isSome) {f : Frame S}
    (hV : ∀ id s, Brings env (n.conn p) f id s → V id s) (consumed : ℕ) (src : Source) :
    Learns env V n (dispatch (managerListener env k) p f consumed src n).2 := by
  have hC := closing_gossipSteps env k
  unfold dispatch
  extract_lets now m alive
  have hm : GossipSteps env n m := (modify_gossipSteps p (by intro; rfl) n.bump).after rfl
  -- the fields that the frame is checked against are still there
  have hmp : m.heap.get? p =
      some { n.conn p with lastRecv := now, dispatched := (n.conn p).dispatched ++ [(src, f)] } :=
    Node.get?_setConn_self (n := n.bump) _ hp
  have hV' (id : PeerId) (s : Bytes) (h : Brings env (m.conn p) f id s) : V id s := by
    rw [Node.conn_of_get? hmp] at h
    exact hV id s h.of_stamp
  cases f with
  | hello b h => exact hm.learns.trans (handleHello_learns (by rw [hmp, Option.isSome_some]) consumed src hV')
  | authConfirm tag sig => exact hm.learns.trans (handleAuthConfirm_learns consumed src hV')
  | heartbeat => exact (hm.trans (consume_gossipSteps p src consumed m)).learns
  | goodbye => exact (hm.trans ((consume_gossipSteps p src consumed m).trans (fail_gossipSteps hC p _ _ _ _))).learns
  | data d =>
    dsimp only
    split_ifs
    · exact (hm.trans (fail_gossipSteps hC p _ _ _ m)).learns
    all_goals
      have hd : GossipSteps env m (onPeerData (managerSink env k) p d m) := (applyRouter_gossipSteps _ m.bump).after rfl
    · exact (hm.trans (hd.trans (consume_gossipSteps p src consumed _))).learns
    · exact (hm.trans hd).learns
  | membership rec =>
    dsimp only
    split_ifs
    · exact (hm.trans (fail_gossipSteps hC p _ _ _ m)).learns
    · exact (hm.trans (consume_gossipSteps p src consumed m)).learns.trans (onPeerMembership_learns p rec _)
  | identity rec =>
    dsimp only
    split_ifs
    · exact (hm.trans (fail_gossipSteps hC p _ _ _ m)).learns
    · exact (hm.trans (consume_gossipSteps p src consumed m)).learns.trans
        (onPeerIdentity_learns (fun h => hV _ _ (.record rec h)) p _)

lemma recordTurn_gossipSteps (p : Ptr) (n : Node S) :
    GossipSteps env n (recordTurn (managerListener env k) p n).world := by
  have hC := closing_gossipSteps env k
  unfold recordTurn
  extract_lets c clen
  split_ifs
  · exact .refl
  · exact fail_gossipSteps hC p _ _ _ n
  · exact .refl
  · split
    · exact fail_gossipSteps hC p _ _ _ n
    · unfold Turn.world
      exact modify_gossipSteps p (by intro; rfl) n

end Input

end Multimaster
