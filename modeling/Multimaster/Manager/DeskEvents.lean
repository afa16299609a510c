import Multimaster.Manager.DeskFrames

/-! What each event asks of the router, the membership and the `tick` timer. -/

namespace Multimaster

variable {S : Suite}

section Steps

variable {env : Env S} {k : ℕ}

lemma startDialAddr_inner (addr : Addr) (n : Node S) : Inner env n (startDialAddr (managerSink env k) addr n) :=
  ((managerSink_heeds env k).respects.startConnect _ _).after (Nat.le_succ n.pos) rfl

lemma dialSeeds_inner (n : Node S) : Inner env n (dialSeeds (managerSink env k) n) := by
  unfold dialSeeds
  split_ifs
  · exact .refl n
  · refine .foldl (fun n s => ?_) _ n
    unfold dialSeed
    split
    · exact .bump n
    · exact .trans (.bump n) (startDialAddr_inner _ _)

lemma maybeDial_inner (id : PeerId) (n : Node S) : Inner env n (maybeDial (managerSink env k) id n) := by
  unfold maybeDial
  extract_lets r
  split_ifs
  iterate 5 exact .refl n
  exact ((managerSink_heeds env k).respects.startConnect _ _).after (Nat.le_succ n.pos) rfl

lemma onDiscovered_inner (id : PeerId) (port : UInt16) (ip : UInt32) (n : Node S) :
    Inner env n (onDiscovered (managerSink env k) id port ip n) := by
  unfold onDiscovered
  extract_lets r m
  have hm : Inner env n m := .aside (Nat.le_succ _) rfl
  split_ifs
  · exact hm.trans (maybeDial_inner id m)
  · exact (hm.trans (.trans (.notify _ (by simp [Notice.ofGossip])) (.knownSnapshot _))).trans (maybeDial_inner id _)

lemma acceptConnection_inner (addr : Addr) (n : Node S) :
    Inner env n (acceptConnection (managerSink env k) addr n) := by
  unfold acceptConnection
  extract_lets p c m
  have hm : Inner env n m := ((managerSink_heeds env k).respects.startInbound p _).after (Nat.le_succ n.pos) rfl
  exact hm.trans (.aside le_rfl rfl)

lemma onReconnectTimer_inner (id : PeerId) (n : Node S) :
    Inner env n (onReconnectTimer (managerSink env k) id n) := by
  unfold onReconnectTimer
  split
  · exact .refl n
  · split_ifs
    · exact .refl n
    · exact .refl n
    · exact .bump n
    · exact .trans (.bump n) (maybeDial_inner id _)

lemma evictTimer_calls (env : Env S) (k : ℕ) (rearm : Bool) (n : Node S) : ∃ m : Node S,
    m.desk = Desk.apply env n.desk (n.pos, .route .sweep) ∧ n.pos ≤ m.pos ∧
      Inner env m (evictTimer (managerSink env k) rearm n) := by
  unfold evictTimer
  extract_lets period now m
  refine ⟨m, ?_, Nat.le_succ _, ?_⟩
  · change _ = { n.desk with router := n.router.evictSweep env.cfg now, told := n.desk.told ++ [] }
    rw [List.append_nil]
    rfl
  · split_ifs
    · exact .timer _ _ (by simp)
    · exact .refl m

lemma sweepBody_inner (now : ℤ) (n : Node S) (p : Ptr) : Inner env n (sweepBody (managerSink env k) now n p) := by
  have hR := managerSink_heeds env k
  unfold sweepBody
  extract_lets cfg
  split
  · have h := hR.respects.maybeHeartbeat p now cfg.heartbeatInterval n
    split_ifs
    · exact h.trans (hR.closeGracefully p _)
    · exact h
  iterate 3
    split_ifs
    · exact hR.closeGracefully p n
    · exact .refl n
  exact .refl n

lemma loseSilent_inner (now : ℤ) (n : Node S) : Inner env n (loseSilent (managerSink env k) now n) := by
  unfold loseSilent
  extract_lets toLose m
  split_ifs
  · exact .bump n
  · refine .trans (.bump n) (.trans (.foldl (fun n id => ?_) toLose m) (.knownSnapshot _))
    exact (DeskSteps.notify { n with records := n.records.erase id } (by simp [Notice.ofGossip])).after
      (le_refl n.pos) rfl

lemma tickIdentity_inner (now : ℤ) (n : Node S) : Inner env n (tickIdentity (managerSink env k) now n) := by
  unfold tickIdentity floodSelfIdentity
  split_ifs
  · exact .refl n
  · extract_lets r m
    have hm : Inner env n m := (forwardExcept_inner (managerSink_heeds env k) _ none r.2).after (le_refl n.pos) rfl
    exact hm.trans (.aside (Nat.le_succ _) rfl)
  · exact .refl n

lemma tick_inner {n : Node S} (hrun : n.running = true) :
    ∃ m, Inner env n m ∧ tick (managerSink env k) n = m.addTimer env env.cfg.heartbeatInterval .tick := by
  have hR := managerSink_heeds env k
  unfold tick
  extract_lets now n₁ n₂
  rw [if_neg (by simp [hrun])]
  refine ⟨n₂, ?_, rfl⟩
  have hsweep : Inner env n (sweep (managerSink env k) now n.bump) := by
    obtain ⟨l, -, hl⟩ := sweepFrom_foldl (managerSink env k) now n.bump.conns n.bump
    rw [sweep, hl]
    exact .trans (.bump n) (.foldl (sweepBody_inner now) l n.bump)
  have h₁ : Inner env n n₁ := .trans (.trans hsweep (loseSilent_inner now _)) (maintainStaticPeers_inner hR _)
  have hmem : Inner env n₁ (tickMembership (managerSink env k) now n₁) :=
    applyMembership_inner hR .tickMembership trivial (i := n.pos) rfl (Membership.tick_members _ _ _ _)
  have hseeds (m : Node S) : Inner env m (dialIfIsolated (managerSink env k) m) := by
    unfold dialIfIsolated
    split_ifs
    · exact dialSeeds_inner m
    · exact .refl m
  exact h₁.trans (hmem.trans ((tickIdentity_inner now _).trans (hseeds _)))

end Steps

def Decoded.dataView : Decoded S → Option DataView
  | .ok (.data d) _ => some d
  | _ => none

def Event.routerCall (env : Env S) (n : Node S) : Event → Option (ℕ × RouterOp)
  | .broadcast payload => some (n.pos, .broadcast payload)
  | .send dst payload => some (n.pos, .targeted dst payload)
  | .timer i =>
    match n.timers[i]? with
    | some (_, .evictSweep _) => some (n.pos, .sweep)
    | _ => none
  | .plaintextTurn p =>
    if (n.conn p).dead = false ∧ (n.conn p).state = .established ∧ sealedMode (n.conn p) = false then
      (tryDecodeFrame (S := S) (n.conn p).inBuf env.cfg.maxMessageBytes).dataView.map
        fun d => (n.pos + 1, .data d (some p))
    else none
  | .secureTurn p =>
    if (n.conn p).dead = false ∧ sealedMode (n.conn p) = true then
      (tryDecodeFrame (S := S) (n.conn p).plainBuf env.cfg.maxMessageBytes).dataView.map
        fun d => (n.pos + 1, .data d (some p))
    else none
  | _ => none

section Events

variable {env : Env S} {k : ℕ}

lemma dataView_ok {x : Decoded S} {d : DataView} (h : x.dataView = some d) :
    ∃ consumed, x = .ok (.data d) consumed := by
  unfold Decoded.dataView at h
  split at h
  · cases h
    exact ⟨_, rfl⟩
  · cases h

lemma erased_desk {n : Node S} {i : ℕ} {due : ℤ} {kind : TimerKind} (h : n.timers[i]? = some (due, kind))
    (hkind : kind ≠ .tick) : Node.desk { n with timers := n.timers.eraseIdx i } = n.desk := by
  have hc := (List.getElem_cons_eraseIdx_perm (List.getElem?_eq_some_iff.mp h).1).countP_eq (·.2 = TimerKind.tick)
  rw [(List.getElem?_eq_some_iff.mp h).2, List.countP_cons_of_neg (by simpa using hkind)] at hc
  exact congrArg (fun k => { n.desk with ticks := k }) hc

lemma step_inner {n : Node S} {e : Event} (hs : e ≠ .shutdown)
    (ht : ∀ i d, e = .timer i → n.timers[i]? ≠ some (d, .tick)) (hr : e.routerCall env n = none) :
    Inner env n (step env n e) := by
  have hR := managerSink_heeds env (depth n)
  have hL := managerListener_heeds env (depth n)
  unfold step
  split_ifs with hdead
  · exact .refl n
  cases e with
  | discovered id port ip => exact onDiscovered_inner id port ip n
  | accept addr => exact acceptConnection_inner addr n
  | hangup p => exact hR.fail p _ _ _ n
  | connected p =>
    simp only [perform]
    split_ifs
    · exact hR.onConnectComplete p n
    · exact .refl n
  | writable p =>
    simp only [perform]
    split_ifs
    · exact .refl n
    · exact hR.respects.flushOutbound p n
  | receive p l =>
    simp only [perform]
    split_ifs
    · exact .refl n
    · exact hL.modify n p _
  | eof p => exact hR.fail p _ _ _ n
  | recvError p err => exact hR.fail p _ _ _ n
  | plaintextTurn p =>
    simp only [perform]
    split_ifs with hmode
    · exact .refl n
    · have hal : (n.conn p).dead = false := eq_false_of_ne_true fun h => hdead h
      cases hdec : tryDecodeFrame (S := S) (n.conn p).inBuf env.cfg.maxMessageBytes with
      | ok f consumed =>
        rw [plaintextTurn_world hdec]
        by_cases hf : ∃ d, f = .data d
        · obtain ⟨d, rfl⟩ := hf
          refine dispatch_early hal (fun hest => ?_) d consumed .inBuf
          have hplain : sealedMode (n.conn p) = false := eq_false_of_ne_true fun h => hmode (.inr h)
          simp only [Event.routerCall, hal, hest, hplain, hdec, and_self, if_true] at hr
          cases hr
        · exact hL.dispatch p (fun d hd => absurd ⟨d, hd⟩ hf) consumed .inBuf n
      | needMore | error =>
        exact hL.plaintextTurn p n fun d consumed h => nomatch hdec.symm.trans h
  | recordTurn p =>
    simp only [perform]
    split_ifs
    · exact hL.recordTurn p n
    · exact .refl n
  | secureTurn p =>
    simp only [perform]
    split_ifs with hmode
    · refine hL.secureTurn p n fun d consumed hdec => ?_
      have hal : (n.conn p).dead = false := eq_false_of_ne_true fun h => hdead h
      have hdec : tryDecodeFrame (S := S) (n.conn p).plainBuf env.cfg.maxMessageBytes = .ok (.data d) consumed := hdec
      simp only [Event.routerCall, hal, hmode, hdec, and_self, if_true] at hr
      cases hr
    · exact .refl n
  | timer i =>
    simp only [perform]
    split
    · exact .refl n
    · next x hx =>
      obtain ⟨due, kind⟩ := x
      have hkind : kind ≠ .tick := fun h => ht i due rfl (h ▸ hx)
      have hn : Inner env n { n with timers := n.timers.eraseIdx i } := .aside le_rfl (erased_desk hx hkind)
      refine hn.trans ?_
      cases kind with
      | tick => exact absurd rfl hkind
      | reap => exact .aside le_rfl rfl
      | reconnect id => exact onReconnectTimer_inner id _
      | evictSweep rearm =>
        simp only [Event.routerCall, hx] at hr
        cases hr
  | broadcast payload => cases hr
  | send dst payload => cases hr
  | shutdown => exact absurd rfl hs

lemma step_calls {n : Node S} {e : Event} {i : ℕ} {op : RouterOp} (hr : e.routerCall env n = some (i, op)) :
    n.pos ≤ i ∧ ∃ m : Node S, m.desk = Desk.apply env n.desk (i, .route op) ∧ i ≤ m.pos ∧
      Inner env m (step env n e) := by
  unfold Event.routerCall at hr
  split at hr
  · next payload =>
    cases hr
    exact ⟨le_rfl, applyRouter_calls env (depth n) (.broadcast payload) n⟩
  · next dst payload =>
    cases hr
    exact ⟨le_rfl, applyRouter_calls env (depth n) (.targeted dst payload) n⟩
  · next j =>
    split at hr
    · next due rearm hj =>
      cases hr
      have hstep : step env n (.timer j) =
          evictTimer (managerSink env (depth n)) rearm { n with timers := n.timers.eraseIdx j } := by
        simp only [step, Event.target, Option.any_none, Bool.false_eq_true, if_false, perform, hj, fireTimer]
        rfl
      obtain ⟨m, hm, hpos, hrest⟩ :=
        evictTimer_calls env (depth n) rearm { n with timers := n.timers.eraseIdx j }
      rw [hstep]
      rw [erased_desk hj (by simp)] at hm
      exact ⟨le_rfl, m, hm, hpos, hrest⟩
    · cases hr
  · next p =>
    split_ifs at hr with h
    obtain ⟨hal, hest, hplain⟩ := h
    obtain ⟨d, hd, heq⟩ := Option.map_eq_some_iff.mp hr
    cases heq
    obtain ⟨consumed, hdec⟩ := dataView_ok hd
    refine ⟨Nat.le_succ _, ?_⟩
    have hstep : step env n (.plaintextTurn p) =
        (dispatch (managerListener env (depth n)) p (.data d) consumed .inBuf n).2 := by
      rw [← plaintextTurn_world (L := managerListener env (depth n)) hdec]
      simp only [step, Event.target, Option.any_some, hal, Bool.false_eq_true, if_false, perform, hest, hplain, or_self,
        reduceCtorEq]
    rw [hstep]
    exact dispatch_dataView hal hest d consumed .inBuf
  · next p =>
    split_ifs at hr with h
    obtain ⟨hal, hsealed⟩ := h
    obtain ⟨d, hd, heq⟩ := Option.map_eq_some_iff.mp hr
    cases heq
    obtain ⟨consumed, hdec⟩ := dataView_ok hd
    refine ⟨Nat.le_succ _, ?_⟩
    have hstep : step env n (.secureTurn p) =
        (dispatch (managerListener env (depth n)) p (.data d) consumed .plainBuf n).2 := by
      rw [← secureTurn_world (L := managerListener env (depth n)) hdec]
      simp only [step, Event.target, Option.any_some, hal, Bool.false_eq_true, if_false, perform, hsealed, if_true]
    rw [hstep]
    exact dispatch_dataView hal (sealedMode_iff.mp hsealed).2 d consumed .plainBuf
  · cases hr

lemma fired_desk (env : Env S) {n : Node S} {i : ℕ} {due : ℤ} (h : n.timers[i]? = some (due, .tick)) (j : ℕ) :
    Node.desk { n with timers := n.timers.eraseIdx i } = Desk.apply env n.desk (j, .fire) := by
  have hc := (List.getElem_cons_eraseIdx_perm (List.getElem?_eq_some_iff.mp h).1).countP_eq (·.2 = TimerKind.tick)
  rw [(List.getElem?_eq_some_iff.mp h).2, List.countP_cons_of_pos (by simp)] at hc
  exact congrArg (fun k => { n.desk with ticks := k }) (Nat.eq_sub_of_add_eq hc)

lemma armed_desk (env : Env S) (n : Node S) (delay : ℤ) (j : ℕ) :
    (n.addTimer env delay .tick).desk = Desk.apply env n.desk (j, .arm) := by
  have hc : (n.timers ++ [(env.oracle.clock n.pos + delay, TimerKind.tick)]).countP (·.2 = .tick) =
      n.timers.countP (·.2 = .tick) + 1 := by
    rw [List.countP_append, List.countP_singleton, if_pos (by simp)]
  exact congrArg (fun k => { n.desk with ticks := k }) hc

lemma step_tick (env : Env S) {n : Node S} {i : ℕ} {due : ℤ} (h : n.timers[i]? = some (due, .tick)) : ∃ m : Node S,
    Inner env { n with timers := n.timers.eraseIdx i } m ∧ step env n (.timer i) =
      if n.running then m.addTimer env env.cfg.heartbeatInterval .tick else m := by
  have hstep : step env n (.timer i) = tick (managerSink env (depth n)) { n with timers := n.timers.eraseIdx i } := by
    simp only [step, Event.target, Option.any_none, Bool.false_eq_true, if_false, perform, h, fireTimer]
    rfl
  rw [hstep]
  by_cases hrun : n.running = true
  · obtain ⟨m, hm, htick⟩ : ∃ m, Inner env { n with timers := n.timers.eraseIdx i } m ∧ tick (managerSink env (depth n))
        { n with timers := n.timers.eraseIdx i } = m.addTimer env env.cfg.heartbeatInterval .tick := tick_inner hrun
    exact ⟨m, hm, by rw [if_pos hrun, htick]⟩
  · exact ⟨_, .refl _, by simp [tick, hrun]⟩

lemma step_shutdown (env : Env S) (n : Node S) : ∃ m : Node S, Inner env { n with running := false } m ∧
    (step env n .shutdown).pos = m.pos ∧
      (step env n .shutdown).desk = { m.desk with membership := m.membership.clear } ∧
    (step env n .shutdown).timers = m.timers := by
  have hstep : step env n .shutdown = shutdown (managerSink env (depth n)) n := rfl
  rw [hstep]
  unfold shutdown
  extract_lets n₁ n₂
  refine ⟨n₂, .foldl (fun n p => ?_) _ _, rfl, rfl, rfl⟩
  split_ifs
  · exact (managerSink_heeds env _).closeGracefully p n
  · exact .refl n

lemma started_inner (env : Env S) : ∃ m : Node S, Inner env { Node.initial env with running := true } m ∧
    started env = m.addTimer env env.cfg.heartbeatInterval .tick := by
  have hR := managerSink_heeds env (depth (Node.initial env))
  unfold started start
  extract_lets cfg period _ n₁ targets n₂
  refine ⟨n₂, ?_, rfl⟩
  have h₁ : Inner env { Node.initial env with running := true } n₁ := .timer _ _ (by simp)
  have h₂ : Inner env n₁ n₂ :=
    ((dialSeeds_inner _).trans (maintainStaticPeers_inner hR _)).after (le_refl n₁.pos) rfl
  exact h₁.trans h₂

end Events

end Multimaster
