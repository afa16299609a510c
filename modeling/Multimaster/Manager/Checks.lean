import Multimaster.Manager.Enduring

/-! The checks that `tick` makes on every connection. -/

namespace Multimaster

variable {S : Suite} {env : Env S} {o : Node S} {e : Option Event}

structure Checked (env : Env S) (T : ℤ) (c : PeerConnection S) : Prop extends Prompt env T c where
  beats : env.cfg.overflowPolicy ≠ .dropNewest → c.dead = false → c.state = .established →
    T - c.lastSend < env.cfg.heartbeatInterval

section Checks

variable {k : ℕ} {n : Node S} {p : Ptr} {c d : PeerConnection S} {T : ℤ}

lemma Checked.of_dead (h : c.dead = true) : Checked env T c := by
  have never (hc : c.dead = false) : False := by
    rw [h] at hc
    cases hc
  exact ⟨⟨fun hc => (never hc).elim, fun hc => (never hc).elim⟩, fun _ hc => (never hc).elim⟩

lemma Checked.survives (hi : 0 < env.cfg.heartbeatInterval) (h : Checked env T c) (hs : Survives c d)
    (hsend : d.lastSend = c.lastSend ∨ T ≤ d.lastSend) : Checked env T d := by
  rcases hs with hs | hs
  · have hst := hs.state
    have hdead := hs.dead
    have hcreated : d.createdAt = c.createdAt := hs.field PeerConnection.createdAt fun _ => rfl
    have hrecv : d.lastRecv = c.lastRecv := hs.field PeerConnection.lastRecv fun _ => rfl
    refine ⟨⟨?_, ?_⟩, ?_⟩
    · rw [hst, hdead, hcreated]
      exact h.handshake
    · rw [hst, hdead, hrecv]
      exact h.heard
    · intro hpol hal hest
      rcases hsend with hsend | hsend
      · rw [hsend]
        exact h.beats hpol (hdead ▸ hal) (hst ▸ hest)
      · omega
  · exact .of_dead hs.dead

lemma run_state_dead (env : Env S) (es : List Event) (q : Ptr) (d : PeerConnection S)
    (hd : (run env es).heap.get? q = some d) (hs : d.state = .dead) : d.dead = true := by
  have kept {o : Node S} {e : Option Event} {s t : Instant S} (h : PlanStep env o e s t)
      (hs : ∀ q c, s.node.heap.get? q = some c → c.state = .dead → c.dead = true) (q : Ptr) (d : PeerConnection S)
      (hd : t.node.heap.get? q = some d) (hdead : d.state = .dead) : d.dead = true := by
    rcases h.object hd with ⟨-, hnew⟩ | ⟨c, hc, hshift⟩
    · rcases hnew.state with h | h <;> rw [h] at hdead <;> cases hdead
    · cases hshift with
      | turn st hst h =>
        simp only [PeerConnection.log, Prod.mk.injEq] at h
        exact absurd (h.2.1.symm.trans hdead) hst
      | killed hal h =>
        simp only [PeerConnection.log, Prod.mk.injEq] at h
        exact h.1
      | _ =>
        next h =>
        simp only [PeerConnection.log, Prod.mk.injEq] at h
        rw [h.1]
        exact hs q c hc (h.2.1.symm.trans hdead)
  refine planSteps_induction (I := fun s => ∀ q c, s.node.heap.get? q = some c → c.state = .dead → c.dead = true)
    (fun q c hc => ?_) (fun h hs => kept h hs) (fun _ _ h hs => kept h hs) (along_true env (started env) es) q d hd hs
  cases (Dict.get?_empty q).symm.trans hc

variable (hm : Monotone env.oracle.clock) (hi : 0 < env.cfg.heartbeatInterval)

include hm hi

lemma maybeHeartbeat_beats (hpol : env.cfg.overflowPolicy ≠ .dropNewest) (hc : n.heap.get? p = some c)
    (hest : c.state = .established) (hb : bound n < k) (hpos : o.pos ≤ n.pos)
    (hd : (maybeHeartbeat (managerSink env k) p (env.oracle.clock o.pos) env.cfg.heartbeatInterval n).heap.get? p =
      some d) (hal : d.dead = false) : env.oracle.clock o.pos - d.lastSend < env.cfg.heartbeatInterval := by
  have hcon : n.conn p = c := Node.conn_of_get? hc
  unfold maybeHeartbeat at hd
  extract_lets x at hd
  have hx : x = c := hcon
  split_ifs at hd with hne hdue
  · cases hc.symm.trans hd
    rw [hx] at hne
    rcases hne with h | h
    · exact absurd hest h
    · rw [hal] at h
      cases h
  · rcases enqueue_lastSend hm hpol .heartbeat hc hb hpos hd with h | h
    · rw [hal] at h
      cases h
    · omega
  · cases hc.symm.trans hd
    rw [hx] at hdue
    omega

lemma sweepBody_checked (hn : Fits k n) (hpos : o.pos ≤ n.pos) (hc : n.heap.get? p = some c)
    (hs : c.state = .dead → c.dead = true) :
    ∃ d, (sweepBody (managerSink env k) (env.oracle.clock o.pos) n p).heap.get? p = some d ∧
      Checked env (env.oracle.clock o.pos) d := by
  obtain ⟨d, hd, hcd, -⟩ := (sweepBody_endures hm (env.oracle.clock o.pos) n p hn hpos).2.2 p c hc
  refine ⟨d, hd, ?_⟩
  have closed {m : Node S} (hb : bound m < k) (h : (closeGracefully (managerSink env k) p m).heap.get? p = some d) :
      Checked env (env.oracle.clock o.pos) d := by
    refine .of_dead ?_
    rw [← Node.conn_of_get? h]
    exact closeGracefully_dead p hb
  have waits (hne : c.state ≠ .established) (ht : env.oracle.clock o.pos - c.createdAt ≤ env.cfg.handshakeTimeout)
      (h : n.heap.get? p = some d) : Checked env (env.oracle.clock o.pos) d := by
    cases hc.symm.trans h
    exact ⟨⟨fun _ _ => ht, fun _ h => absurd h hne⟩, fun _ _ h => absurd h hne⟩
  have hcon : n.conn p = c := Node.conn_of_get? hc
  unfold sweepBody at hd
  extract_lets cfg at hd
  rw [hcon] at hd
  cases hst : c.state with
  | established =>
    rw [hst] at hd
    dsimp only at hd
    have hbeat : BookCall env k n
        (maybeHeartbeat (managerSink env k) p (env.oracle.clock o.pos) cfg.heartbeatInterval n) :=
      (respects_bookCall env k).maybeHeartbeat p _ _ n
    split_ifs at hd with ht
    · exact closed ((hbeat hn.bound (.idle n)).bound_le.trans_lt hn.bound) hd
    · rw [Node.conn_of_get? hd] at ht
      have hest (hal : d.dead = false) : d.state = .established := by
        rcases hcd with h | h
        · exact h.state.trans hst
        · rw [show d.dead = true from h.dead] at hal
          cases hal
      exact ⟨⟨fun hal hne => absurd (hest hal) hne, fun _ _ => not_lt.mp ht⟩,
        fun hpol hal _ => maybeHeartbeat_beats hm hi hpol hc hst hn.bound hpos hd hal⟩
  | handshaking | awaitingConfirm | connectingOut =>
    rw [hst] at hd
    dsimp only at hd
    split_ifs at hd with ht
    · exact closed hn.bound hd
    · exact waits (by rw [hst]; exact ConnState.noConfusion) (not_lt.mp ht) hd
  | dead =>
    rw [hst] at hd
    cases hc.symm.trans hd
    exact .of_dead (hs hst)

lemma sweep_checked {l : List Ptr} (hn : Fits k n) (hpos : o.pos ≤ n.pos) (hp : p ∈ l) (hc : n.heap.get? p = some c)
    (hs : c.state = .dead → c.dead = true) :
    ∃ d, (l.foldl (sweepBody (managerSink env k) (env.oracle.clock o.pos)) n).heap.get? p = some d ∧
      Checked env (env.oracle.clock o.pos) d := by
  induction l generalizing n c with
  | nil => cases hp
  | cons q l ih =>
    obtain ⟨hn', hpos', hobj⟩ := sweepBody_endures (k := k) hm (env.oracle.clock o.pos) n q hn hpos
    by_cases hq : p = q
    · subst hq
      obtain ⟨b, hb, hchecked⟩ := sweepBody_checked hm hi hn hpos hc hs
      have hrest := Endures.foldl (sweepBody_endures (k := k) (o := o) hm (env.oracle.clock o.pos)) l
        (sweepBody (managerSink env k) (env.oracle.clock o.pos) n p)
      obtain ⟨d, hd, hbd, hsend⟩ := (hrest hn' hpos').2.2 p b hb
      exact ⟨d, hd, hchecked.survives hi hbd hsend⟩
    · obtain ⟨b, hb, hcb, -⟩ := hobj p c hc
      refine ih hn' hpos' ((List.mem_cons.mp hp).resolve_left hq) hb fun hdead => ?_
      rcases hcb with h | h
      · exact h.dead.trans (hs (h.state.symm.trans hdead))
      · exact h.dead

lemma tick_checked (hn : Fits k n) (hpos : n.pos = o.pos) (hrun : n.running = true)
    (hloop : ∀ l, l <+: n.conns →
      (l.foldl (sweepBody (managerSink env k) (env.oracle.clock n.pos)) n.bump).conns = n.conns)
    (hp : p ∈ n.conns) (hc : n.heap.get? p = some c) (hs : c.state = .dead → c.dead = true) :
    ∃ d, (tick (managerSink env k) n).heap.get? p = some d ∧ Checked env (env.oracle.clock o.pos) d := by
  unfold tick
  extract_lets now n₁ n₂
  have hnow : now = env.oracle.clock o.pos := by rw [← hpos]; rfl
  rw [if_neg (by simp [hrun])]
  let m := sweep (managerSink env k) now n.bump
  have hall : m = n.bump.conns.foldl (sweepBody (managerSink env k) now) n.bump :=
    sweepFrom_all (managerSink env k) now n.bump.conns n.bump hloop
  have hsweep : Endures env o k n.bump m := by
    rw [hall]
    exact .foldl (sweepBody_endures hm now) _ _
  obtain ⟨hfit, hposm, -⟩ := hsweep hn (hpos ▸ Nat.le_succ _)
  obtain ⟨b, hb, hchecked⟩ : ∃ d, m.heap.get? p = some d ∧ Checked env (env.oracle.clock o.pos) d := by
    rw [hall, hnow]
    exact sweep_checked (n := n.bump) hm hi hn (hpos ▸ Nat.le_succ _) hp hc hs
  have hlose : Endures env o k m (loseSilent (managerSink env k) now m) := by
    refine .of_heap (e := some (.timer 0)) (hnow ▸ loseSilent_planRun rfl m) ?_
    unfold loseSilent
    extract_lets toLose m'
    split_ifs
    · rfl
    · exact loseRecords_heap toLose m'
  have hstatic : Endures env o k (loseSilent (managerSink env k) now m) n₁ :=
    .of_calls (e := none) hm (maintainStaticPeers_bookCall (respects_bookCall env k) _)
      (maintainStaticPeers_planCall (admits_planCall env o none k) _)
  have hmember : Endures env o k n₁ (tickMembership (managerSink env k) now n₁) :=
    .of_calls (e := none) hm (tickMembership_bookCall now n₁)
      (applyMembership_planCall (admits_planCall env o none k) (Membership.tick_members _ _ _ _)
        (tick_speaks _ _ _ _) n₁)
  have hident : Endures env o k (tickMembership (managerSink env k) now n₁)
      (tickIdentity (managerSink env k) now (tickMembership (managerSink env k) now n₁)) :=
    .of_calls (e := none) hm (tickIdentity_bookCall now _) (tickIdentity_planCall now _)
  have hseeds :
      Endures env o k (tickIdentity (managerSink env k) now (tickMembership (managerSink env k) now n₁)) n₂ := by
    unfold n₂ dialIfIsolated
    split_ifs
    · exact dialSeeds_endures hm _
    · exact .refl _
  have hlast : Endures env o k n₂ (n₂.addTimer env env.cfg.heartbeatInterval .tick) :=
    .of_heap (e := none) (arrange_planRun _ (fun _ h => by cases h) _) rfl
  have hrest := hlose.trans (hstatic.trans (hmember.trans (hident.trans (hseeds.trans hlast))))
  obtain ⟨d, hd, hbd, hsend⟩ := (hrest hfit hposm).2.2 p b hb
  exact ⟨d, hd, hchecked.survives hi hbd hsend⟩

end Checks

end Multimaster
