import Multimaster.Manager.LinkRun

/-! The frames that arrive on a connection, as sequences of link steps. -/

namespace Multimaster

variable {S : Suite} {env : Env S} {k : ℕ} {A : License S}

structure Accepts (own : LocalIdentity S) (c : PeerConnection S) (h : Hello S) : Prop where
  state : c.state = .handshaking
  version : h.protocolVersion = own.protocolVersion
  group : h.groupName = own.groupName
  secure : h.secure = c.secure

instance (own : LocalIdentity S) (c : PeerConnection S) (h : Hello S) : Decidable (Accepts own c h) :=
  decidable_of_iff (c.state = .handshaking ∧ h.protocolVersion = own.protocolVersion ∧
      h.groupName = own.groupName ∧ h.secure = c.secure)
    ⟨fun ⟨a, b, c, d⟩ => ⟨a, b, c, d⟩, fun h => ⟨h.state, h.version, h.group, h.secure⟩⟩

def nextHello (env : Env S) (n : Node S) (p : Ptr) : Option (Hello S) :=
  match tryDecodeFrame (n.conn p).inBuf env.cfg.maxMessageBytes with
  | .ok (.hello _ h) _ => if Accepts env.self (n.conn p) h then some h else none
  | _ => none

lemma nextHello_of_decode {n : Node S} {p : Ptr} {ack : Bool} {h : Hello S} {consumed : ℕ}
    (hd : tryDecodeFrame (n.conn p).inBuf env.cfg.maxMessageBytes = .ok (.hello ack h) consumed)
    (ha : Accepts env.self (n.conn p) h) : nextHello env n p = some h := by
  simp only [nextHello, hd, ha, if_true]

inductive Completes (own : LocalIdentity S) (c : PeerConnection S) : Frame S → PeerId → Prop where
  | hello (ack : Bool) (h : Hello S) (ha : Accepts own c h) (hp : c.secure = false) :
      Completes own c (.hello ack h) h.nodeId
  | confirm (tag : S.Block 32) (sig : Option (S.Block 64)) (hs : c.state = .awaitingConfirm) :
      Completes own c (.authConfirm tag sig) c.peerId

def SameOutput (c d : PeerConnection S) : Prop :=
  d.outBuf = c.outBuf ∧ d.sess = c.sess ∧ d.secure = c.secure

structure Licensed (A : License S) (own : LocalIdentity S) (n : Node S) (p : Ptr)
    (c : PeerConnection S) (f : Frame S) : Prop where
  hello : ∀ ack h, f = .hello ack h → Accepts own c h → ∀ d, A.hello (n.setConn p d) p h
  complete : ∀ d, SameOutput c d → Completes own c f d.peerId → A.complete (n.setConn p d) p

lemma consume_handled (src : Source) (l : ℕ) (c : PeerConnection S) : Handled c (consume src l c) := by
  cases src <;> rfl

lemma consume_output (src : Source) (l : ℕ) (c : PeerConnection S) :
    SameOutput c (consume src l c) := by
  cases src <;> exact ⟨rfl, rfl, rfl⟩

lemma identityFailure_ne {self : LocalIdentity S} {c : PeerConnection S} {sig : Option (S.Block 64)}
    {what : String} (h : identityFailure self c sig = some what) : what ≠ "peer said goodbye" := by
  unfold identityFailure at h
  split at h
  · cases h
    decide
  · split_ifs at h <;> cases h <;> decide

lemma goodbye_linkSteps {n : Node S} {p : Ptr} (hn : Ready k n) (hp : (n.conn p).dead = false) :
    LinkSteps env k A n (fail (managerSink env k) p .socket 0 "peer said goodbye" n) := by
  let m := n.setConn p { n.conn p with failure := some (.socket, 0, "peer said goodbye") }
  have hm : (m.conn p).dead = false := by
    have hs : (n.heap.get? p).isSome := by rw [Node.get?_of_alive hp, Option.isSome_some]
    rw [Node.conn_setConn_self _ hs]
    exact hp
  have hf : fail (managerSink env k) p .socket 0 "peer said goodbye" n =
      markDead (managerSink env k) p m := by
    unfold fail
    exact if_neg (ne_true_of_eq_false hp)
  have hin : LinkRun env k A n m := .input rfl
  obtain ⟨hmv, hr⟩ := hin hn
  obtain ⟨o, ho, he⟩ := markDead_spec env p hr.bound hr.owned hm
  rw [hf, he]
  exact hmv.tail (.close p hm ho)

lemma ready_setConn {n : Node S} (hn : Ready k n) (p : Ptr) (c : PeerConnection S) :
    Ready k (n.setConn p c) := by
  refine ⟨hn.fits, fun id q hq => ?_⟩
  rw [Node.isSome_setConn]
  exact hn.owned id q hq

section Handshake

variable {n : Node S} {p : Ptr} {c : PeerConnection S} (hn : Ready k n)
  (hf : n.records.keys.length + 1 < k) (hs : (n.heap.get? p).isSome) (hp : c.dead = false)

include hn hs

lemma awaitConfirm_linkSteps {h : Hello S} (hr : HandshakeResult S) (hc : c.state = .handshaking)
    (hi : c.peerId = h.nodeId) (ha : A.hello (n.setConn p c) p h) :
    LinkSteps env k A (n.setConn p c)
      (awaitConfirm (managerListener env k) p h hr (n.setConn p c)).2 := by
  have hcon : (n.setConn p c).conn p = c := Node.conn_setConn_self c hs
  unfold awaitConfirm
  extract_lets self useIdentity w w'
  have hw : LinkStep env k A (n.setConn p c) w :=
    .await _ p h _ (by rw [hcon]; exact hc) (by rw [hcon]; exact hi) ha ⟨rfl, rfl, rfl, rfl⟩
  obtain ⟨h₁, hr₁⟩ := LinkRun.setConn hw (ready_setConn hn p c)
  exact h₁.trans (LinkRun.of_linkCall ((respects_linkCall env k).sendAuthConfirm p w) hr₁).1

include hf hp

omit hn in
lemma establish_linkSteps {h : Hello S}
    (hst : c.state = .handshaking ∧ c.peerId = h.nodeId ∧ A.hello (n.setConn p c) p h ∨
      c.state = .awaitingConfirm) (ha : A.complete (n.setConn p c) p) :
    LinkSteps env k A (n.setConn p c) (establish (managerListener env k) p h (n.setConn p c)).2 := by
  have hcon : (n.setConn p c).conn p = c := Node.conn_setConn_self c hs
  refine .single (.establish _ p h (by rw [hcon]; exact hp) ?_ ha hf)
  rw [hcon]
  exact hst

lemma handleHello_linkSteps {ack : Bool} {h : Hello S} (hL : Licensed A env.self n p c (.hello ack h))
    (consumed : ℕ) (src : Source) :
    LinkSteps env k A (n.setConn p c)
      (handleHello (managerListener env k) p h consumed src (n.setConn p c)).2 := by
  have hr : Ready k (n.setConn p c) := ready_setConn hn p c
  have hc : (n.setConn p c).conn p = c := Node.conn_setConn_self c hs
  let d := consume src consumed { c with
    peerId := h.nodeId, peerListenPort := h.tcpListenPort, peerNonce := h.nonce }
  have hd := consume_handled src consumed { c with
    peerId := h.nodeId, peerListenPort := h.tcpListenPort, peerNonce := h.nonce }
  unfold handleHello
  extract_lets self c' w
  have hc' : c' = c := hc
  rw [hc']
  split_ifs with h₁ h₂ h₃ h₄ h₅
  · exact (LinkRun.input (consume_handled src consumed _) hr).1
  · exact (fail_linkRun p _ _ (by decide) _ hr).1
  · exact (fail_linkRun p _ _ (by decide) _ hr).1
  all_goals
    -- the Hello is accepted: the peer's id and addresses are taken over
    rw [not_not] at h₁
    have hacc : Accepts env.self c h := by
      rw [not_or, not_not, not_not] at h₂
      exact ⟨h₁, h₂.1, h₂.2, not_not.mp h₃⟩
    have hw : w = n.setConn p d := by
      rw [← Node.setConn_setConn n p c d]
      exact congrArg (fun c => (n.setConn p _).setConn p (consume src consumed { c with
        peerId := h.nodeId, peerListenPort := h.tcpListenPort, peerNonce := h.nonce })) hc
    have hm : LinkSteps env k A (n.setConn p c) (n.setConn p d) := by
      rw [← Node.setConn_setConn n p c d]
      refine .single (.hello _ p h d (by rw [hc]; exact h₁) (hL.hello ack h rfl hacc c) ?_)
      rw [hc]
      exact hd
    rw [hw]
    refine hm.trans ?_
    have hdst : d.state = .handshaking := hd.state.trans h₁
    have hr' := ready_setConn hn p d
  · refine establish_linkSteps hf hs (hd.dead.trans hp) ?_ ?_
    · exact .inl ⟨hdst, hd.peerId, hL.hello ack h rfl hacc d⟩
    · refine hL.complete d (consume_output src consumed _) ?_
      rw [show d.peerId = h.nodeId from hd.peerId]
      exact .hello ack h hacc (by simpa using h₄)
  · exact (fail_linkRun p _ _ (by decide) _ hr').1
  · split
    · exact (fail_linkRun p _ _ (by decide) _ hr').1
    · exact awaitConfirm_linkSteps hn hs _ hdst hd.peerId (hL.hello ack h rfl hacc d)

lemma handleAuthConfirm_linkSteps {tag : S.Block 32} {sig : Option (S.Block 64)}
    (hL : Licensed A env.self n p c (.authConfirm tag sig)) (consumed : ℕ) (src : Source) :
    LinkSteps env k A (n.setConn p c)
      (handleAuthConfirm (managerListener env k) p tag sig consumed src (n.setConn p c)).2 := by
  have hr : Ready k (n.setConn p c) := ready_setConn hn p c
  have hc : (n.setConn p c).conn p = c := Node.conn_setConn_self c hs
  let d := consume src consumed c
  have hd := consume_handled src consumed c
  unfold handleAuthConfirm
  extract_lets c' w
  have hc' : c' = c := hc
  rw [hc']
  have hv : ∀ what, (if c.useIdentity then identityFailure (managerListener env k).env.self c sig
      else none) = some what → what ≠ "peer said goodbye" := by
    intro what hwhat
    split_ifs at hwhat
    exact identityFailure_ne hwhat
  generalize (if c.useIdentity then identityFailure (managerListener env k).env.self c sig
    else none) = verdict at hv ⊢
  split_ifs with h₁ h₂
  · exact (fail_linkRun p _ _ (by decide) _ hr).1
  all_goals
    have hst : c.state = .awaitingConfirm := by
      simp only [Bool.or_eq_true, decide_eq_true_eq, not_or, not_not] at h₁
      exact h₁.2
    have hw : w = n.setConn p d := by
      rw [← Node.setConn_setConn n p c d]
      exact congrArg (fun c => (n.setConn p _).setConn p (consume src consumed c)) hc
    have hm : LinkSteps env k A (n.setConn p c) (n.setConn p d) := by
      rw [← Node.setConn_setConn n p c d]
      refine .single (.input _ p d ?_)
      rw [hc]
      exact hd
    rw [hw]
    refine hm.trans ?_
    have hr' := ready_setConn hn p d
  · exact (fail_linkRun p _ _ (by decide) _ hr').1
  · cases verdict with
    | some what => exact (fail_linkRun p _ _ (hv what rfl) _ hr').1
    | none =>
      refine establish_linkSteps hf hs (hd.dead.trans hp) (.inr (hd.state.trans hst)) ?_
      refine hL.complete d (consume_output src consumed c) ?_
      rw [show d.peerId = c.peerId from hd.peerId]
      exact .confirm tag sig hst

end Handshake

lemma applyMembership_chats {n : Node S} {r : Membership × List Notice × Option (Flood S)}
    (hr : Membership.Calm n.membership r) :
    Chats env k n (applyMembership (managerSink env k) r n) := by
  refine .trans (.of_quiet ?_) (.of_linkCall (applyMembership_linkCall (respects_linkCall env k) r n))
  constructor <;> first | rfl | exact hr.1 | exact ⟨_, rfl, hr.2⟩

lemma routerAct_chats (n : Node S) (a : RouterAct S) :
    Chats env k n (routerAct (managerSink env k) n a) := by
  cases a with
  | deliverLocal src payload => exact .of_quiet (.notify n (by simp [Notice.aside]))
  | flood f exceptFd => exact .of_linkCall (forwardExcept_linkCall (respects_linkCall env k) f exceptFd n)
  | route dst f exceptFd =>
    have h := Chats.of_linkCall (forwardTo_linkCall (respects_linkCall env k) dst f n)
    unfold routerAct
    dsimp only
    split_ifs
    · exact h
    · exact h.trans (.of_linkCall (forwardExcept_linkCall (respects_linkCall env k) f exceptFd _))

lemma applyRouter_chats (r : GossipRouter × List (RouterAct S)) (n : Node S) :
    Chats env k n (applyRouter (managerSink env k) r n) := by
  refine .trans (.of_quiet (m := { n with router := r.1 }) ?_) (.foldl routerAct_chats r.2 _)
  constructor <;> first | rfl | exact ⟨[], (List.append_nil _).symm, by simp⟩

lemma onPeerData_chats (p : Ptr) (view : DataView) (n : Node S) :
    Chats env k n (onPeerData (managerSink env k) p view n) :=
  .trans (.of_quiet (.bump n)) (applyRouter_chats _ _)

lemma onPeerMembership_chats (p : Ptr) (rec : MembershipRecord) (n : Node S) :
    Chats env k n (onPeerMembership (managerSink env k) p rec n) :=
  .trans (.of_quiet (.bump n))
    (applyMembership_chats (Membership.onRemoteRecord_calm _ rec (some p) _ n.membership))

lemma onPeerIdentity_chats (p : Ptr) (rec : IdentityRecord S) (n : Node S) :
    Chats env k n (onPeerIdentity (managerSink env k) p rec n) := by
  unfold onPeerIdentity
  extract_lets self origin n₁ n₂
  have h₁ : Chats env k n n₁ := by
    refine .of_quiet ?_
    constructor <;> first | rfl | exact ⟨[], (List.append_nil _).symm, by simp⟩
  have h₂ : Chats env k n₁ n₂ := by
    unfold n₂
    split
    · exact .refl n₁
    · refine .of_quiet ?_
      constructor <;> first | rfl | exact ⟨_, rfl, by simp [Notice.aside]⟩
  split_ifs
  iterate 5 exact .refl n
  exact (h₁.trans h₂).trans (.of_linkCall (forwardExcept_linkCall (respects_linkCall env k) _ _ _))

def stamped (env : Env S) (n : Node S) (p : Ptr) (f : Frame S) (src : Source) : PeerConnection S :=
  { n.conn p with
    lastRecv := env.oracle.clock n.pos, dispatched := (n.conn p).dispatched ++ [(src, f)] }

lemma Licensed.stamped {n m : Node S} {p : Ptr} {f : Frame S} (h : Licensed A env.self m p (n.conn p) f)
    (src : Source) : Licensed A env.self m p (stamped env n p f src) f where
  hello ack x hf ha := h.hello ack x hf ⟨ha.state, ha.version, ha.group, ha.secure⟩
  complete d hd hc := by
    refine h.complete d hd ?_
    generalize d.peerId = id at hc ⊢
    cases hc with
    | hello ack x ha hp => exact .hello ack x ⟨ha.state, ha.version, ha.group, ha.secure⟩ hp
    | confirm tag sig hs => exact .confirm tag sig hs

variable (env) in
lemma dispatch_linkSteps {n : Node S} {p : Ptr} {f : Frame S} (hn : Ready k n)
    (hf : n.records.keys.length + 1 < k) (hp : (n.conn p).dead = false)
    (hL : Licensed A env.self n.bump p (n.conn p) f) (consumed : ℕ) (src : Source) :
    LinkSteps env k A n (dispatch (managerListener env k) p f consumed src n).2 := by
  have hs : (n.bump.heap.get? p).isSome := by
    rw [Node.bump, Node.get?_of_alive hp, Option.isSome_some]
  have hb : Ready k n.bump := ⟨hn.fits, hn.owned⟩
  have hps : (stamped env n p f src).dead = false := hp
  let n₁ := n.bump.setConn p (stamped env n p f src)
  have h₁ : LinkSteps env k A n n₁ := .tail (.single (.quiet (.bump n))) (.input n.bump p _ rfl)
  have hr₁ : Ready k n₁ := ready_setConn hb p _
  have hp₁ : (n₁.conn p).dead = false := by
    rw [Node.conn_setConn_self _ hs]
    exact hp
  have use (m : Node S) (h : LinkRun env k A n₁ m) : LinkSteps env k A n m := h₁.trans (h hr₁).1
  have eat (m : Node S) : LinkRun env k A m (m.setConn p (consume src consumed (m.conn p))) :=
    .input (consume_handled src consumed _)
  cases f with
  | hello ack h => exact h₁.trans (handleHello_linkSteps hb hf hs hps (hL.stamped src) consumed src)
  | authConfirm tag sig =>
    exact h₁.trans (handleAuthConfirm_linkSteps hb hf hs hps (hL.stamped src) consumed src)
  | heartbeat => exact use _ (eat n₁)
  | goodbye =>
    obtain ⟨h₂, hr₂⟩ := eat n₁ hr₁
    refine h₁.trans (h₂.trans (goodbye_linkSteps hr₂ ?_))
    rw [Node.conn_setConn_self _ (by rw [Node.isSome_setConn]; exact hs)]
    exact (consume_handled src consumed _).dead.trans hp₁
  | data d =>
    simp only [dispatch]
    split_ifs
    · exact use _ (fail_linkRun p _ _ (by decide) _)
    · exact use _ ((onPeerData_chats p d _).linkRun.trans (eat _))
    · exact use _ (onPeerData_chats p d _).linkRun
  | membership m =>
    simp only [dispatch]
    split_ifs
    · exact use _ (fail_linkRun p _ _ (by decide) _)
    · exact use _ ((eat _).trans (onPeerMembership_chats p m _).linkRun)
  | identity r =>
    simp only [dispatch]
    split_ifs
    · exact use _ (fail_linkRun p _ _ (by decide) _)
    · exact use _ ((eat _).trans (onPeerIdentity_chats p r _).linkRun)

end Multimaster
