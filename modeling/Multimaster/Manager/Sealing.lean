import Multimaster.Manager.Guarding
import Multimaster.Manager.Outcome

/-! The callbacks and events of `peer_manager` keep every connection guarded. -/

namespace Multimaster

variable {S : Suite} {env : Env S} {k : ℕ}

section Callbacks

variable (hsec : env.self.secure = true)

include hsec

lemma sendIdentity_guards {p : Ptr} {n : Node S} (hp : ∀ c, n.heap.get? p = some c → Sealable c) :
    Guards n (sendIdentity (managerSink env k) p n) := by
  unfold sendIdentity
  split
  · exact Guards.after (n := n) (enqueue_guards (closing_guards hsec k) (.inr hp)) rfl rfl
  · exact .refl n

lemma announceConnected_guards (pid : PeerId) (n : Node S) :
    Guards n (announceConnected (managerSink env k) pid n) :=
  (updateLocalMembership_guards (closing_guards hsec k) _).after rfl rfl

lemma takeLink_guards {p : Ptr} (pid : PeerId) (h : Hello S) (existing : Option Ptr) {n : Node S}
    (hp : ∃ c, n.heap.get? p = some c ∧ Sealable c) :
    Guards n (takeLink (managerSink env k) p pid h existing n) := by
  unfold takeLink
  extract_lets wasConnected n₁ n₂
  have hl : Guards n (learnName pid h (installLink p pid n)) := by
    have hi : Guards n (installLink p pid n) := by
      intro hn
      refine ⟨⟨fun id q hq => ?_, hn.conn⟩, fun q => .refl _⟩
      have hq' : (n.estab.insert pid p).get? id = some q := hq
      rw [Dict.get?_insert] at hq'
      split_ifs at hq'
      · cases hq'
        exact hp
      · exact hn.link id q hq'
    refine hi.trans ?_
    unfold learnName
    split <;> exact .of_fields rfl rfl
  have hheap : (learnName pid h (installLink p pid n)).heap = n.heap := by
    unfold learnName
    split <;> rfl
  have h₁ : Guards n n₁ := by
    refine hl.trans (sendIdentity_guards hsec fun c hc => ?_)
    obtain ⟨d, hd, hs⟩ := hp
    rw [hheap, hd] at hc
    cases hc
    exact hs
  have h₂ : Guards n₁ n₂ := by
    unfold n₂
    cases existing with
    | none => exact .refl n₁
    | some q => exact (closeGracefully_guards (closing_guards hsec k) q _).after rfl rfl
  split_ifs
  · exact h₁.trans h₂
  · exact (h₁.trans h₂).trans (announceConnected_guards hsec pid n₂)

lemma onPeerHandshake_guards {p : Ptr} (h : Hello S) {n : Node S}
    (hp : ∃ c, n.heap.get? p = some c ∧ Sealable c) :
    Guards n (onPeerHandshake (managerSink env k) p h n) := by
  obtain ⟨hl, -⟩ := learned_spec env p h n
  have hn : Guards n (learned env p h n) := .of_fields hl.heap hl.estab
  have hp' : ∃ c, (learned env p h n).heap.get? p = some c ∧ Sealable c := by
    rw [hl.heap]
    exact hp
  by_cases hi : (n.conn p).peerId = env.self.nodeId
  · rw [onPeerHandshake_own (K := managerSink env k) hi]
    exact closeGracefully_guards (closing_guards hsec k) p n
  · refine hn.trans ?_
    cases hex : existingLink p (n.conn p).peerId (learned env p h n) with
    | none =>
      rw [onPeerHandshake_first (K := managerSink env k) hi hex]
      exact takeLink_guards hsec _ h none hp'
    | some q =>
      rw [onPeerHandshake_second (K := managerSink env k) hi hex]
      split_ifs
      · exact (closeGracefully_guards (closing_guards hsec k) p _).after rfl rfl
      · exact Guards.after (takeLink_guards hsec _ h _ hp') rfl rfl

lemma routerAct_guards (n : Node S) (a : RouterAct S) : Guards n (routerAct (managerSink env k) n a) := by
  cases a with
  | deliverLocal src payload => exact .of_fields rfl rfl
  | flood f exceptFd => exact forwardExcept_guards (closing_guards hsec k) f exceptFd n
  | route dst f exceptFd =>
    have h : Guards n (forwardTo (managerSink env k) dst f n).2 :=
      forwardTo_guards (closing_guards hsec k) dst f n
    unfold routerAct
    dsimp only
    split_ifs
    · exact h
    · exact h.trans (forwardExcept_guards (closing_guards hsec k) f exceptFd _)

lemma applyRouter_guards (r : GossipRouter × List (RouterAct S)) (n : Node S) :
    Guards n (applyRouter (managerSink env k) r n) :=
  Guards.after (n := n) (.foldl (routerAct_guards hsec) r.2 _) rfl rfl

lemma onPeerData_guards (p : Ptr) (view : DataView) (n : Node S) :
    Guards n (onPeerData (managerSink env k) p view n) :=
  Guards.after (n := n) (applyRouter_guards hsec _ n.bump) rfl rfl

lemma onPeerMembership_guards (p : Ptr) (rec : MembershipRecord) (n : Node S) :
    Guards n (onPeerMembership (managerSink env k) p rec n) :=
  Guards.after (n := n) (applyMembership_guards (closing_guards hsec k) _ n.bump) rfl rfl

lemma onPeerIdentity_guards (p : Ptr) (rec : IdentityRecord S) (n : Node S) :
    Guards n (onPeerIdentity (managerSink env k) p rec n) := by
  unfold onPeerIdentity
  extract_lets self origin n₁ n₂
  have h₂ : Guards n n₂ := by
    unfold n₂
    split <;> exact .of_fields rfl rfl
  split_ifs
  iterate 5 exact .refl n
  exact h₂.trans (forwardExcept_guards (closing_guards hsec k) _ _ n₂)

end Callbacks

section Events

variable (hsec : env.self.secure = true)

include hsec

lemma startDialAddr_guards (addr : Addr) (n : Node S) :
    Guards n (startDialAddr (managerSink env k) addr n) :=
  (newOutbound_guards hsec addr n).trans (startConnect_guards (closing_guards hsec k) _ _)

lemma dialSeeds_guards (n : Node S) : Guards n (dialSeeds (managerSink env k) n) := by
  unfold dialSeeds
  split_ifs
  · exact .refl n
  · refine .foldl (fun n s => ?_) _ n
    unfold dialSeed
    split
    · exact .of_fields rfl rfl
    · exact (startDialAddr_guards hsec _ n.bump).after rfl rfl

lemma maybeDial_guards (id : PeerId) (n : Node S) : Guards n (maybeDial (managerSink env k) id n) := by
  unfold maybeDial
  extract_lets r
  split_ifs
  iterate 5 exact .refl n
  exact (newOutbound_guards hsec r.dialAddr n).trans
    ((startConnect_guards (closing_guards hsec k) _ _).after rfl rfl)

lemma onDiscovered_guards (id : PeerId) (port : UInt16) (ip : UInt32) (n : Node S) :
    Guards n (onDiscovered (managerSink env k) id port ip n) := by
  unfold onDiscovered
  extract_lets r m
  split_ifs <;> exact (maybeDial_guards hsec id _).after rfl rfl

lemma acceptConnection_guards (addr : Addr) (n : Node S) :
    Guards n (acceptConnection (managerSink env k) addr n) := by
  unfold acceptConnection
  extract_lets p c m
  have hc : Guarded c :=
    ⟨hsec, fun h => h.elim ConnState.noConfusion ConnState.noConfusion, fun f hf => by cases hf⟩
  have ha : Guards n (Node.bump { n with heap := n.heap.insert p c }) :=
    .alloc (Node.freshPtr_free env n) hc rfl rfl rfl
  have hm : Guards n m := ha.trans (startInbound_guards (closing_guards hsec k) p _)
  exact hm.trans (.of_fields rfl rfl)

lemma onReconnectTimer_guards (id : PeerId) (n : Node S) :
    Guards n (onReconnectTimer (managerSink env k) id n) := by
  unfold onReconnectTimer
  split
  · exact .refl n
  · split_ifs
    · exact .refl n
    · exact .refl n
    · exact .of_fields rfl rfl
    · exact (maybeDial_guards hsec id n.bump).after rfl rfl

lemma sweepBody_guards (now : ℤ) (n : Node S) (p : Ptr) :
    Guards n (sweepBody (managerSink env k) now n p) := by
  unfold sweepBody
  extract_lets cfg
  split
  · have h : Guards n (maybeHeartbeat (managerSink env k) p now cfg.heartbeatInterval n) :=
      maybeHeartbeat_guards (closing_guards hsec k) p now cfg.heartbeatInterval n
    split_ifs
    · exact h.trans (closeGracefully_guards (closing_guards hsec k) p _)
    · exact h
  iterate 3
    split_ifs
    · exact closeGracefully_guards (closing_guards hsec k) p n
    · exact .refl n
  exact .refl n

omit hsec in
lemma loseSilent_guards (now : ℤ) (n : Node S) :
    Guards n (loseSilent (managerSink env k) now n) := by
  unfold loseSilent
  extract_lets toLose m
  split_ifs
  · exact .of_fields rfl rfl
  · have h : Guards m (toLose.foldl loseRecord m) := .foldl (by intros; exact .of_fields rfl rfl) _ m
    exact Guards.after (h.trans (.of_fields rfl rfl)) rfl rfl

lemma tickIdentity_guards (now : ℤ) (n : Node S) :
    Guards n (tickIdentity (managerSink env k) now n) := by
  unfold tickIdentity floodSelfIdentity
  split_ifs
  · exact .refl n
  · extract_lets r m
    have hm : Guards n m :=
      Guards.after (n := n) (forwardExcept_guards (closing_guards hsec k) _ _ r.2) rfl rfl
    exact hm.trans (.of_fields rfl rfl)
  · exact .refl n

lemma tick_guards (n : Node S) : Guards n (tick (managerSink env k) n) := by
  unfold tick
  extract_lets now n₁ n₂
  split_ifs
  · exact .refl n
  · have h₀ : Guards n (sweep (managerSink env k) now n.bump) := by
      obtain ⟨l, -, hl⟩ := sweepFrom_foldl (managerSink env k) now n.bump.conns n.bump
      rw [sweep, hl]
      exact Guards.after (n := n) (.foldl (sweepBody_guards hsec now) l n.bump) rfl rfl
    have h₁ : Guards n n₁ := h₀.trans ((loseSilent_guards now _).trans
      (maintainStaticPeers_guards (closing_guards hsec k) hsec _))
    have h₂ : Guards n₁ n₂ := by
      have hm : Guards n₁ (tickMembership (managerSink env k) now n₁) :=
        applyMembership_guards (closing_guards hsec k) _ n₁
      refine (hm.trans (tickIdentity_guards (k := k) hsec now _)).trans ?_
      unfold n₂ dialIfIsolated
      split_ifs
      · exact dialSeeds_guards hsec _
      · exact .refl _
    exact (h₁.trans h₂).trans (.of_fields rfl rfl)

/-- The node when `shutdown()` has said goodbye on every link. -/
def closedDown (K : Sink S (Node S)) (n : Node S) : Node S :=
  n.conns.foldl (fun n p => if (n.conn p).state = .established then closeGracefully K p n else n)
    { n with running := false }

lemma closedDown_guards (n : Node S) : Guards n (closedDown (managerSink env k) n) := by
  refine Guards.after (n := n) (.foldl (fun n p => ?_) _ _) rfl rfl
  split_ifs
  · exact closeGracefully_guards (closing_guards hsec k) p n
  · exact .refl n

end Events

end Multimaster
