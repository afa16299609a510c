import Multimaster.Manager.BookSteps

/-! What the frames that arrive write into the books of a node. -/

namespace Multimaster

variable {S : Suite}
variable {env : Env S} {k : ℕ} {A : Permit S}

section Links

variable {n : Node S} {p : Ptr} {pid : PeerId}

lemma closeGracefully_bookRun (p : Ptr) (n : Node S) :
    BookRun env k A n (closeGracefully (managerSink env k) p n) := .of_bookCall (closeGracefully_bookCall env k p n)

lemma fail_bookRun (p : Ptr) (cat : ErrorCategory) (err : ℤ) (what : String) (n : Node S) :
    BookRun env k A n (fail (managerSink env k) p cat err what n) :=
  .of_bookCall (fail_bookChanges env k p cat err what n)

lemma installLink_bookRun (hr : (n.records.get? pid).isSome) : BookRun env k A n (installLink p pid n) := by
  obtain ⟨r, hr⟩ := Option.isSome_iff_exists.mp hr
  have hn : BookRun env k A n { n with estab := n.estab.insert pid p } := .of_aside rfl
  refine hn.trans ?_
  unfold installLink
  rw [Node.record_of_get? hr]
  exact .amend hr rfl rfl

lemma learnName_aside (pid : PeerId) (h : Hello S) (n : Node S) : Aside n (learnName pid h n) := by
  unfold learnName
  split_ifs
  · exact .trans (m := { n with names := n.names.insert pid h.nodeName }) rfl (.notify _ (by simp [Notice.known]))
  · exact .refl n

lemma sendIdentity_bookCall (p : Ptr) (n : Node S) : BookCall env k n (sendIdentity (managerSink env k) p n) := by
  unfold sendIdentity
  split_ifs
  · exact .trans (m := (makeSelfIdRecord env n).2) (.of_aside rfl) ((respects_bookCall env k).enqueue p _ _)
  · exact .refl n

lemma announceConnected_bookCall (pid : PeerId) (n : Node S) :
    BookCall env k n (announceConnected (managerSink env k) pid n) := by
  refine .trans (.of_aside (.trans (.notify n ?_) (.connected env _)))
    (updateLocalMembership_bookCall (respects_bookCall env k) _)
  simp [Notice.known]

lemma takeLink_bookRun (h : Hello S) (existing : Option Ptr) (hr : (n.records.get? pid).isSome) :
    BookRun env k A n (takeLink (managerSink env k) p pid h existing n) := by
  unfold takeLink
  extract_lets wasConnected n₁ n₂
  have h₁ : BookRun env k A n n₁ :=
    (installLink_bookRun hr).trans (.trans (.of_aside (learnName_aside pid h _))
      (.of_bookCall (sendIdentity_bookCall p _)))
  have h₂ : BookRun env k A n₁ n₂ := by
    unfold n₂
    cases existing with
    | none => exact .refl n₁
    | some q => exact .trans (.of_aside (.deref n₁ [q])) (closeGracefully_bookRun q _)
  split_ifs
  · exact h₁.trans h₂
  · exact (h₁.trans h₂).trans (.of_bookCall (announceConnected_bookCall pid _))

lemma onPeerHandshake_bookSteps (h : Hello S) (hp : (n.conn p).dead = false) (hf : Fits k n.bump)
    (hf' : n.records.keys.length + 1 < k)
    (ha : (n.conn p).peerId ≠ env.self.nodeId → A.bind n p (n.conn p).peerId) :
    BookSteps env A { Juncture.idle n with greeted := some p }
      (.idle (onPeerHandshake (managerSink env k) p h n)) := by
  by_cases hi : (n.conn p).peerId = env.self.nodeId
  · rw [onPeerHandshake_own (K := managerSink env k) hi]
    have hclose : BookChanges env { Juncture.idle n with greeted := some p }
        { Juncture.idle (closeGracefully (managerSink env k) p n) with greeted := some p } :=
      closeGracefully_bookCall env k p n hf.bound { Juncture.idle n with greeted := some p }
    exact (BookChanges.bookSteps hclose).tail (.leave p rfl (closeGracefully_grave hp hf.bound))
  · obtain ⟨hl, r, hr, -⟩ := learned_spec env p h n
    have hlearn : BookStep env A { Juncture.idle n with greeted := some p } (.idle (learned env p h n)) :=
      .learn (s := { Juncture.idle n with greeted := some p }) p h rfl (ha hi)
    have hfl : Fits k (learned env p h n) := hl.length.trans_lt hf'
    have hsome : ((learned env p h n).records.get? (n.conn p).peerId).isSome := by rw [hr, Option.isSome_some]
    have finish {m : Node S} (hw : BookRun env k A (learned env p h n) m) :
        BookSteps env A { Juncture.idle n with greeted := some p } (.idle m) := .head hlearn (hw hfl).1
    cases hex : existingLink p (n.conn p).peerId (learned env p h n) with
    | none =>
      rw [onPeerHandshake_first (K := managerSink env k) hi hex]
      exact finish (takeLink_bookRun h none hsome)
    | some q =>
      rw [onPeerHandshake_second (K := managerSink env k) hi hex]
      have hderef : BookRun env k A (learned env p h n) ((learned env p h n).deref [q]) := .of_aside (.deref _ [q])
      split_ifs
      · exact finish (hderef.trans (closeGracefully_bookRun p _))
      · exact finish (hderef.trans (takeLink_bookRun h (some q) hsome))

end Links

section Frames

structure SameBooks (n m : Node S) : Prop where
  records : m.records = n.records
  staticTargets : m.staticTargets = n.staticTargets
  staticDialConn : m.staticDialConn = n.staticDialConn

variable {n : Node S} {p : Ptr}

lemma establish_bookSteps {c : PeerConnection S} (h : Hello S) (hs : (n.heap.get? p).isSome) (hc : c.dead = false)
    (hf : n.records.keys.length + 1 < k) (ha : ∀ m, SameBooks n m → c.peerId ≠ env.self.nodeId → A.bind m p c.peerId) :
    BookSteps env A (.idle (n.setConn p c)) (.idle (establish (managerListener env k) p h (n.setConn p c)).2) := by
  let m := n.setConn p c
  let g := m.setConn p { m.conn p with state := .established }
  have hm : m.conn p = c := Node.conn_setConn_self c hs
  have hg : g.conn p = { m.conn p with state := .established } :=
    Node.conn_setConn_self _ (by rw [Node.isSome_setConn]; exact hs)
  have hgreet : BookStep env A (.idle m) { Juncture.idle g with greeted := some p } :=
    .greet (s := .idle m) p (by rw [show (Juncture.idle m).node.conn p = c from hm]; exact hc) rfl
  refine .head hgreet (onPeerHandshake_bookSteps h ?_ (Nat.lt_of_succ_lt hf) hf ?_)
  · rw [hg, hm]
    exact hc
  · rw [hg, hm]
    exact ha g ⟨rfl, rfl, rfl⟩

lemma awaitConfirm_bookRun {c : PeerConnection S} (h : Hello S) (hr : HandshakeResult S) :
    BookRun env k A (n.setConn p c) (awaitConfirm (managerListener env k) p h hr (n.setConn p c)).2 := by
  unfold awaitConfirm
  extract_lets self useIdentity w w'
  have hw : BookRun env k A (n.setConn p c) w :=
    .of_bookStep (.shake (s := .idle (n.setConn p c)) p _ rfl (by simp)) rfl
  exact hw.trans (.of_bookCall ((respects_bookCall env k).sendAuthConfirm p w))

lemma eat_bookRun (src : Source) (l : ℕ) (n : Node S) (p : Ptr) :
    BookRun env k A n (n.setConn p (consume src l (n.conn p))) := .input (consume_dead ..) (consume_state ..)

section Handshake

variable {c : PeerConnection S} (hs : (n.heap.get? p).isSome) (hc : c.dead = false)
  (hf : n.records.keys.length + 1 < k)

include hs hc hf

lemma handleHello_bookSteps {ack : Bool} {h : Hello S}
    (ha : ∀ pid m, SameBooks n m → Completes env.self c (.hello ack h) pid → pid ≠ env.self.nodeId → A.bind m p pid)
    (consumed : ℕ) (src : Source) : BookSteps env A (.idle (n.setConn p c))
      (.idle (handleHello (managerListener env k) p h consumed src (n.setConn p c)).2) := by
  have hfit : Fits k (n.setConn p c) := Nat.lt_of_succ_lt hf
  have hcon : (n.setConn p c).conn p = c := Node.conn_setConn_self c hs
  let d := consume src consumed { c with
    peerId := h.nodeId, peerListenPort := h.tcpListenPort, peerNonce := h.nonce }
  have hdead : d.dead = c.dead := consume_dead ..
  have hstate : d.state = c.state := consume_state ..
  unfold handleHello
  extract_lets self c' w
  have hc' : c' = c := hcon
  rw [hc']
  split_ifs with h₁ h₂ h₃ h₄ h₅
  · exact (eat_bookRun src consumed _ p hfit).1
  · exact (fail_bookRun p _ _ _ _ hfit).1
  · exact (fail_bookRun p _ _ _ _ hfit).1
  all_goals
    -- the Hello is accepted: the peer's id and addresses are taken over
    have hw : w = n.setConn p d := by
      rw [← Node.setConn_setConn n p c d]
      exact congrArg (fun c => (n.setConn p _).setConn p (consume src consumed { c with
        peerId := h.nodeId, peerListenPort := h.tcpListenPort, peerNonce := h.nonce })) hcon
    have hm : BookSteps env A (.idle (n.setConn p c)) (.idle (n.setConn p d)) := by
      rw [← Node.setConn_setConn n p c d]
      exact .single (.input (s := .idle (n.setConn p c)) p d (by rw [hdead]; exact congrArg _ hcon.symm)
        (by rw [hstate]; exact congrArg _ hcon.symm))
    have hfit' : Fits k (n.setConn p d) := hfit
    rw [hw]
    refine hm.trans ?_
  · refine establish_bookSteps h hs (hdead.trans hc) hf fun m hm => ha _ m hm ?_
    rw [show d.peerId = h.nodeId from (consume_handled src consumed _).peerId]
    rw [not_not] at h₁
    rw [not_or, not_not, not_not] at h₂
    exact .hello ack h ⟨h₁, h₂.1, h₂.2, not_not.mp h₃⟩ (by simpa using h₄)
  · exact (fail_bookRun p _ _ _ _ hfit').1
  · split
    · exact (fail_bookRun p _ _ _ _ hfit').1
    · exact (awaitConfirm_bookRun h _ hfit').1

lemma handleAuthConfirm_bookSteps {tag : S.Block 32} {sig : Option (S.Block 64)}
    (ha : ∀ pid m, SameBooks n m → Completes env.self c (.authConfirm tag sig) pid → pid ≠ env.self.nodeId →
      A.bind m p pid) (consumed : ℕ) (src : Source) : BookSteps env A (.idle (n.setConn p c))
      (.idle (handleAuthConfirm (managerListener env k) p tag sig consumed src (n.setConn p c)).2) := by
  have hfit : Fits k (n.setConn p c) := Nat.lt_of_succ_lt hf
  have hcon : (n.setConn p c).conn p = c := Node.conn_setConn_self c hs
  let d := consume src consumed c
  have hdead : d.dead = c.dead := consume_dead ..
  have hstate : d.state = c.state := consume_state ..
  unfold handleAuthConfirm
  extract_lets c' w
  have hc' : c' = c := hcon
  rw [hc']
  generalize (if c.useIdentity then identityFailure (managerListener env k).env.self c sig else none) = verdict
  split_ifs with h₁ h₂
  · exact (fail_bookRun p _ _ _ _ hfit).1
  all_goals
    have hw : w = n.setConn p d := by
      rw [← Node.setConn_setConn n p c d]
      exact congrArg (fun c => (n.setConn p _).setConn p (consume src consumed c)) hcon
    have hm : BookSteps env A (.idle (n.setConn p c)) (.idle (n.setConn p d)) := by
      rw [← Node.setConn_setConn n p c d]
      exact .single (.input (s := .idle (n.setConn p c)) p d (by rw [hdead]; exact congrArg _ hcon.symm)
        (by rw [hstate]; exact congrArg _ hcon.symm))
    have hfit' : Fits k (n.setConn p d) := hfit
    rw [hw]
    refine hm.trans ?_
  · exact (fail_bookRun p _ _ _ _ hfit').1
  · cases verdict with
    | some what => exact (fail_bookRun p _ _ _ _ hfit').1
    | none =>
      refine establish_bookSteps c.peerHello hs (hdead.trans hc) hf fun m hm => ha _ m hm ?_
      rw [show d.peerId = c.peerId from (consume_handled src consumed _).peerId]
      refine .confirm tag sig ?_
      simp only [Bool.or_eq_true, decide_eq_true_eq, not_or, not_not] at h₁
      exact h₁.2

end Handshake

lemma routerAct_bookCall (n : Node S) (a : RouterAct S) : BookCall env k n (routerAct (managerSink env k) n a) := by
  cases a with
  | deliverLocal src payload => exact .of_aside (.notify n (by simp [Notice.known]))
  | flood f exceptFd => exact forwardExcept_bookCall (respects_bookCall env k) f exceptFd n
  | route dst f exceptFd =>
    have h := forwardTo_bookCall (respects_bookCall env k) dst f n
    unfold routerAct
    dsimp only
    split_ifs
    · exact h
    · exact h.trans (forwardExcept_bookCall (respects_bookCall env k) f exceptFd _)

lemma applyRouter_bookCall (r : GossipRouter × List (RouterAct S)) (n : Node S) :
    BookCall env k n (applyRouter (managerSink env k) r n) :=
  .trans (m := { n with router := r.1 }) (.of_aside rfl) (.foldl routerAct_bookCall r.2 _)

lemma onPeerData_bookCall (p : Ptr) (view : DataView) (n : Node S) :
    BookCall env k n (onPeerData (managerSink env k) p view n) :=
  .trans (.of_aside (.bump n)) (applyRouter_bookCall _ _)

lemma onPeerMembership_bookCall (p : Ptr) (rec : MembershipRecord) (n : Node S) :
    BookCall env k n (onPeerMembership (managerSink env k) p rec n) :=
  .trans (.of_aside (.bump n)) (applyMembership_bookCall (respects_bookCall env k)
    (Membership.onRemoteRecord_members _ _ _ _ _) _)

lemma onPeerIdentity_bookCall (p : Ptr) (rec : IdentityRecord S) (n : Node S) :
    BookCall env k n (onPeerIdentity (managerSink env k) p rec n) := by
  unfold onPeerIdentity
  extract_lets self origin n₁ n₂
  have h₁ : BookCall env k n n₁ := .of_aside rfl
  have h₂ : BookCall env k n₁ n₂ := by
    unfold n₂
    split
    · exact .refl n₁
    · exact .of_aside (.trans (m := { n₁ with names := n₁.names.insert origin rec.name }) rfl
        (.notify _ (by simp [Notice.known])))
  split_ifs
  iterate 5 exact .refl n
  exact (h₁.trans h₂).trans (forwardExcept_bookCall (respects_bookCall env k) _ _ _)

variable (env) in
lemma dispatch_bookSteps {f : Frame S} (hf : n.records.keys.length + 1 < k) (hp : (n.conn p).dead = false)
    (ha : ∀ pid m, SameBooks n m → Completes env.self (n.conn p) f pid → pid ≠ env.self.nodeId → A.bind m p pid)
    (consumed : ℕ) (src : Source) :
    BookSteps env A (.idle n) (.idle (dispatch (managerListener env k) p f consumed src n).2) := by
  have hs : (n.bump.heap.get? p).isSome := by
    rw [Node.bump, Node.get?_of_alive hp, Option.isSome_some]
  have hps : (stamped env n p f src).dead = false := hp
  let n₁ := n.bump.setConn p (stamped env n p f src)
  have hstamp : BookRun env k A n n₁ := .trans (.of_aside (.bump n)) (.input rfl rfl)
  have hfit : Fits k n := Nat.lt_of_succ_lt hf
  have ha' (pid : PeerId) (m : Node S) (hm : SameBooks n.bump m)
      (hc : Completes env.self (stamped env n p f src) f pid) : pid ≠ env.self.nodeId → A.bind m p pid := by
    refine ha pid m ⟨hm.records, hm.staticTargets, hm.staticDialConn⟩ ?_
    cases hc with
    | hello ack x hx hpl => exact .hello ack x ⟨hx.state, hx.version, hx.group, hx.secure⟩ hpl
    | confirm tag sig hst => exact .confirm tag sig hst
  have use (m : Node S) (h : BookRun env k A n₁ m) : BookSteps env A (.idle n) (.idle m) := (hstamp.trans h hfit).1
  have eat (m : Node S) : BookRun env k A m (m.setConn p (consume src consumed (m.conn p))) :=
    eat_bookRun src consumed m p
  cases f with
  | hello ack h => exact (hstamp hfit).1.trans (handleHello_bookSteps hs hps hf ha' consumed src)
  | authConfirm tag sig => exact (hstamp hfit).1.trans (handleAuthConfirm_bookSteps hs hps hf ha' consumed src)
  | heartbeat => exact use _ (eat n₁)
  | goodbye => exact use _ ((eat n₁).trans (fail_bookRun p _ _ _ _))
  | data d =>
    simp only [dispatch]
    split_ifs
    · exact use _ (fail_bookRun p _ _ _ _)
    · exact use _ (.trans (.of_bookCall (onPeerData_bookCall p d _)) (eat _))
    · exact use _ (.of_bookCall (onPeerData_bookCall p d _))
  | membership m =>
    simp only [dispatch]
    split_ifs
    · exact use _ (fail_bookRun p _ _ _ _)
    · exact use _ ((eat _).trans (.of_bookCall (onPeerMembership_bookCall p m _)))
  | identity r =>
    simp only [dispatch]
    split_ifs
    · exact use _ (fail_bookRun p _ _ _ _)
    · exact use _ ((eat _).trans (.of_bookCall (onPeerIdentity_bookCall p r _)))

end Frames

end Multimaster
