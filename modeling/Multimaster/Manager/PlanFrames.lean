import Multimaster.Manager.PlanLinks

/-! What the frames that arrive do to the plan of a node. -/

namespace Multimaster

variable {S : Suite}
variable {env : Env S} {o : Node S} {e : Option Event} {k : ℕ}

section Dispatch

variable {n : Node S} {p : Ptr}

lemma consume_log (src : Source) (l : ℕ) (c : PeerConnection S) : (consume src l c).log = c.log := by
  cases src <;> rfl

lemma eat_planRun (src : Source) (l : ℕ) (n : Node S) (p : Ptr) :
    PlanRun env o e k n (n.setConn p (consume src l (n.conn p))) := .tend (consume_log ..)

lemma transmit_spoken {rec : Bytes} (item : Sent S) (hA : Speaks env o e item.frame) (hf : Fits k n) (s : Instant S) :
    PlanSteps env o e ((s.on n).owing (.speak p)) (s.on (transmit (managerSink env k) p rec item n)) := by
  have hflush := (admits_planCall env o e k).flushOutbound p (appended env p rec item n)
    (show bound n < k from hf.bound)
  exact .head (.speak (s := s.on n) p rec item hA) (hflush.1 s)

section Handshake

variable (hp : (n.conn p).dead = false) (hf : n.records.keys.length + 1 < k)

include hp hf

lemma establish_planSteps (h : Hello S)
    (hs : (n.conn p).state = .handshaking ∧ (n.conn p).secure = false ∨
      (n.conn p).state = .awaitingConfirm ∧ (n.conn p).secure = true)
    (hg : (n.conn p).peerId ≠ env.self.nodeId → Greets env o e (.idle n) p (n.conn p).peerId) :
    PlanSteps env o e (.idle n) (.idle (establish (managerListener env k) p h n).2) := by
  have hsome : (n.heap.get? p).isSome := by rw [Node.get?_of_alive hp, Option.isSome_some]
  let m := n.setConn p { n.conn p with state := .established }
  have hm : m.conn p = { n.conn p with state := .established } := Node.conn_setConn_self _ hsome
  have hfirst : PlanStep env o e (.idle n) ((Instant.idle m).owing (.link p)) := .establish (s := .idle n) p hp hs
  refine .head hfirst (onPeerHandshake_planSteps (n := m) h ?_ hf ?_)
  · rw [hm]
    exact hp
  · rw [hm]
    exact fun hne => ⟨(hg hne).event, (hg hne).next, hne, (hg hne).timers, rfl, (hg hne).pos, (hg hne).outdated⟩

omit hp in
lemma awaitConfirm_planSteps (h : Hello S) (hr : HandshakeResult S) (hs : (n.conn p).state = .handshaking)
    (hsec : (n.conn p).secure = true) :
    PlanSteps env o e (.idle n) (.idle (awaitConfirm (managerListener env k) p h hr n).2) := by
  unfold awaitConfirm
  extract_lets self useIdentity w w'
  have hfirst : PlanStep env o e (.idle n) ((Instant.idle w).owing (.speak p)) :=
    .confirm (s := .idle n) p _ hs hsec rfl
  have hspeaks : Speaks env o e (Frame.authConfirm (w.conn p).myConfirmTag
      (if (w.conn p).useIdentity then some (w.conn p).myIdSig else none)) := speaks_of_ne fun _ h => by cases h
  have hfit : Fits k w := Nat.lt_of_succ_lt hf
  exact .head hfirst (transmit_spoken (.plain _) hspeaks hfit (.idle w))

lemma handleHello_planSteps {ack : Bool} {h : Hello S}
    (hg : ∀ pid, Completes env.self (n.conn p) (.hello ack h) pid → pid ≠ env.self.nodeId →
      Greets env o e (.idle n) p pid) (consumed : ℕ) (src : Source) :
    PlanSteps env o e (.idle n) (.idle (handleHello (managerListener env k) p h consumed src n).2) := by
  have hfit : Fits k n := Nat.lt_of_succ_lt hf
  have hsome : (n.heap.get? p).isSome := by rw [Node.get?_of_alive hp, Option.isSome_some]
  let c := n.conn p
  let d := consume src consumed { c with
    peerId := h.nodeId, peerListenPort := h.tcpListenPort, peerNonce := h.nonce }
  have hlog : d.log = c.log := consume_log ..
  have hd : (n.setConn p d).conn p = d := Node.conn_setConn_self d hsome
  have hdead : ((n.setConn p d).conn p).dead = false := by
    rw [hd]
    exact (congrArg (·.1) hlog).trans hp
  have hstate : ((n.setConn p d).conn p).state = c.state := by
    rw [hd]
    exact congrArg (·.2.1) hlog
  have hsec : ((n.setConn p d).conn p).secure = c.secure := by
    rw [hd]
    exact congrArg (·.2.2.1) hlog
  have hpeer : ((n.setConn p d).conn p).peerId = h.nodeId := by
    rw [hd]
    exact (consume_handled src consumed _).peerId
  have htake : PlanSteps env o e (.idle n) (.idle (n.setConn p d)) := (PlanRun.tend hlog hfit).1 (.idle n)
  unfold handleHello
  extract_lets self c' w
  split_ifs with h₁ h₂ h₃ h₄ h₅
  · exact (eat_planRun src consumed n p hfit).1 (.idle n)
  · exact (fail_planRun env o e k p _ _ _ n hfit).1 (.idle n)
  · exact (fail_planRun env o e k p _ _ _ n hfit).1 (.idle n)
  · have hplain : c'.secure = false := by simpa using h₄
    refine htake.trans (establish_planSteps hdead hf h (.inl ⟨?_, ?_⟩) fun hne => ?_)
    · rw [hstate]
      exact not_not.mp h₁
    · rw [hsec]
      exact hplain
    · rw [hpeer] at hne ⊢
      rw [not_or, not_not, not_not] at h₂
      have hg := hg h.nodeId (.hello ack h ⟨not_not.mp h₁, h₂.1, h₂.2, not_not.mp h₃⟩ hplain) hne
      exact ⟨hg.event, hg.next, hne, hg.timers, rfl, hg.pos, hg.outdated⟩
  · exact htake.trans ((fail_planRun env o e k p _ _ _ (n.setConn p d) hfit).1 (.idle n))
  · split
    · exact htake.trans ((fail_planRun env o e k p _ _ _ (n.setConn p d) hfit).1 (.idle n))
    · have hsecure : c'.secure = true := by simpa using h₄
      refine htake.trans (awaitConfirm_planSteps (n := n.setConn p d) hf h _ ?_ ?_)
      · rw [hstate]
        exact not_not.mp h₁
      · rw [hsec]
        exact hsecure

lemma handleAuthConfirm_planSteps {tag : S.Block 32} {sig : Option (S.Block 64)}
    (hg : ∀ pid, Completes env.self (n.conn p) (.authConfirm tag sig) pid → pid ≠ env.self.nodeId →
      Greets env o e (.idle n) p pid) (consumed : ℕ) (src : Source) :
    PlanSteps env o e (.idle n) (.idle (handleAuthConfirm (managerListener env k) p tag sig consumed src n).2) := by
  have hfit : Fits k n := Nat.lt_of_succ_lt hf
  have hsome : (n.heap.get? p).isSome := by rw [Node.get?_of_alive hp, Option.isSome_some]
  let c := n.conn p
  let d := consume src consumed c
  have hlog : d.log = c.log := consume_log ..
  have hd : (n.setConn p d).conn p = d := Node.conn_setConn_self d hsome
  have htake : PlanSteps env o e (.idle n) (.idle (n.setConn p d)) := (PlanRun.tend hlog hfit).1 (.idle n)
  unfold handleAuthConfirm
  extract_lets c' w
  generalize (if c'.useIdentity then identityFailure (managerListener env k).env.self c' sig else none) = verdict
  split_ifs with h₁ h₂
  · exact (fail_planRun env o e k p _ _ _ n hfit).1 (.idle n)
  · exact htake.trans ((fail_planRun env o e k p _ _ _ (n.setConn p d) hfit).1 (.idle n))
  · cases verdict with
    | some what => exact htake.trans ((fail_planRun env o e k p _ _ _ (n.setConn p d) hfit).1 (.idle n))
    | none =>
      simp only [Bool.or_eq_true, Bool.not_eq_true', decide_eq_true_eq, not_or, not_not, Bool.not_eq_false] at h₁
      have hpeer : ((n.setConn p d).conn p).peerId = c.peerId := by
        rw [hd]
        exact (consume_handled src consumed _).peerId
      refine htake.trans (establish_planSteps (n := n.setConn p d) ?_ hf _ (.inr ⟨?_, ?_⟩) fun hne => ?_)
      · rw [hd]
        exact (congrArg (·.1) hlog).trans hp
      · rw [hd]
        exact (congrArg (·.2.1) hlog).trans h₁.2
      · rw [hd]
        exact (congrArg (·.2.2.1) hlog).trans h₁.1
      · rw [hpeer] at hne ⊢
        have hg := hg c.peerId (.confirm tag sig h₁.2) hne
        exact ⟨hg.event, hg.next, hne, hg.timers, rfl, hg.pos, hg.outdated⟩

end Handshake

lemma routerAct_planCall (n : Node S) {a : RouterAct S} (ha : a.Carries) :
    PlanCall env o e k n (routerAct (managerSink env k) n a) := by
  cases a with
  | deliverLocal src payload => exact .of_beside (.notify n (by simp [Notice.ofLink]))
  | flood f exceptFd =>
    obtain ⟨d, rfl⟩ := ha
    exact forwardExcept_planCall (admits_planCall env o e k) (speaks_of_ne fun _ h => by cases h) exceptFd n
  | route dst f exceptFd =>
    obtain ⟨d, rfl⟩ := ha
    have hs : Speaks env o e (.data d : Frame S) := speaks_of_ne fun _ h => by cases h
    have h := forwardTo_planCall (admits_planCall env o e k) dst hs n
    unfold routerAct
    dsimp only
    split_ifs
    · exact h
    · exact h.trans (forwardExcept_planCall (admits_planCall env o e k) hs exceptFd _)

lemma applyRouter_planCall {r : GossipRouter × List (RouterAct S)} (hr : ∀ a ∈ r.2, a.Carries) (n : Node S) :
    PlanCall env o e k n (applyRouter (managerSink env k) r n) :=
  .trans (m := { n with router := r.1 }) (.of_beside ⟨rfl, le_rfl⟩)
    (.foldl_mem r.2 (fun n a ha => routerAct_planCall n (hr a ha)) _)

lemma onPeerData_planCall (p : Ptr) (view : DataView) (n : Node S) :
    PlanCall env o e k n (onPeerData (managerSink env k) p view n) :=
  .trans (.of_beside (.bump n)) (applyRouter_planCall (onData_carries _ _ _ _ _ _) _)

lemma onPeerMembership_planCall (p : Ptr) (rec : MembershipRecord) (n : Node S) :
    PlanCall env o e k n (onPeerMembership (managerSink env k) p rec n) :=
  .trans (.of_beside (.bump n)) (applyMembership_planCall (admits_planCall env o e k)
    (Membership.onRemoteRecord_members _ _ _ _ _) (onRemoteRecord_speaks _ _ _ _ _) _)

lemma onPeerIdentity_planCall {rec : IdentityRecord S} (hi : n.idVersions = o.idVersions)
    (hr : Admissible env rec o → ∃ ev, e = some ev ∧ ev.Relays env o rec) :
    PlanCall env o e k n (onPeerIdentity (managerSink env k) p rec n) := by
  by_cases ha : Accredited env rec
  · rw [onPeerIdentity_accepted ha]
    split_ifs with hold
    · exact .refl n
    · have hnew : Admissible env rec o := ⟨ha, by rw [← hi]; simpa using hold⟩
      obtain ⟨ev, he, hrel⟩ := hr hnew
      have henter : PlanCall env o e k n { n with
          idVersions := n.idVersions.insert (idFromIdentity rec.idPubKey) rec.version } :=
        .of_planStep (fun s => .identify (s := s.on n) ev rec he hrel hi) rfl
      refine (henter.trans (.of_beside ?_)).trans
        (forwardExcept_planCall (admits_planCall env o e k) ?_ _ (entered rec n))
      · unfold entered
        extract_lets origin m
        split_ifs
        · exact .refl _
        · exact .trans (m := { m with names := m.names.insert origin rec.name }) ⟨rfl, le_rfl⟩
            (.notify _ (by simp [Notice.ofLink]))
      · intro r hr
        cases hr
        exact .inr ⟨ev, he, hrel⟩
  · rw [onPeerIdentity_refused ha]
    exact .refl n

lemma dispatch_planSteps {ev : Event} {f : Frame S} (he : e = some ev) (hh : ev.Hands env o p f)
    (hf : o.records.keys.length + 1 < k)
    (hg : ∀ pid, Completes env.self (o.conn p) f pid → e = some (.plaintextTurn p) ∧ nextPeer env o p = some pid)
    (consumed : ℕ) (src : Source) :
    PlanSteps env o e (.idle o) (.idle (dispatch (managerListener env k) p f consumed src o).2) := by
  have hp : (o.conn p).dead = false := hh.2.1
  have hsome : (o.bump.heap.get? p).isSome := by rw [Node.bump, Node.get?_of_alive hp, Option.isSome_some]
  let n := o.bump.setConn p (stamped env o p f src)
  have hfit : Fits k n := Nat.lt_of_succ_lt hf
  have hcon : n.conn p = stamped env o p f src := Node.conn_setConn_self _ hsome
  have hpn : (n.conn p).dead = false := by rw [hcon]; exact hp
  have hg' (pid : PeerId) (hc : Completes env.self (n.conn p) f pid) (hne : pid ≠ env.self.nodeId) :
      Greets env o e (.idle n) p pid := by
    rw [hcon] at hc
    have hco : Completes env.self (o.conn p) f pid := by
      cases hc with
      | hello ack x hx hpl => exact .hello ack x ⟨hx.state, hx.version, hx.group, hx.secure⟩ hpl
      | confirm tag sig hst => exact .confirm tag sig hst
    exact ⟨(hg pid hco).1, (hg pid hco).2, hne, rfl, rfl, Nat.le_succ _, fun _ h => h⟩
  have hstamp : PlanStep env o e (.idle o) (.idle n) := .stamp ev p f src he hh
  have use (m : Node S) (h : PlanRun env o e k n m) : PlanSteps env o e (.idle o) (.idle m) :=
    .head hstamp ((h hfit).1 (.idle n))
  have eat (m : Node S) : PlanRun env o e k m (m.setConn p (consume src consumed (m.conn p))) :=
    eat_planRun src consumed m p
  cases f with
  | hello ack h => exact .head hstamp (handleHello_planSteps hpn hf hg' consumed src)
  | authConfirm tag sig => exact .head hstamp (handleAuthConfirm_planSteps hpn hf hg' consumed src)
  | heartbeat => exact use _ (eat n)
  | goodbye => exact use _ ((eat n).trans (fail_planRun env o e k p _ _ _ _))
  | data d =>
    simp only [dispatch]
    split_ifs
    · exact use _ (fail_planRun env o e k p _ _ _ _)
    · exact use _ (.trans (.of_planCall (onPeerData_planCall p d _)) (eat _))
    · exact use _ (.of_planCall (onPeerData_planCall p d _))
  | membership m =>
    simp only [dispatch]
    split_ifs
    · exact use _ (fail_planRun env o e k p _ _ _ _)
    · exact use _ ((eat _).trans (.of_planCall (onPeerMembership_planCall p m _)))
  | identity r =>
    simp only [dispatch]
    split_ifs with hs
    · exact use _ (fail_planRun env o e k p _ _ _ _)
    · have hst : (o.conn p).state = .established := by
        have : (n.conn p).state = .established := not_not.mp hs
        rwa [hcon] at this
      exact use _ ((eat n).trans (.of_planCall (onPeerIdentity_planCall rfl
        fun ha => ⟨ev, he, p, hh, hst, ha⟩)))

end Dispatch

end Multimaster
