import Multimaster.Manager.LearningFrames

/-! Which events bring a name, over whole runs. -/

namespace Multimaster

variable {S : Suite}
variable {env : Env S} {k : ℕ} {V : PeerId → Bytes → Prop}

section Events

lemma startDialAddr_gossipSteps (addr : Addr) (n : Node S) :
    GossipSteps env n (startDialAddr (managerSink env k) addr n) :=
  (newOutbound_gossipSteps addr n).trans ((respects_gossipSteps (closing_gossipSteps env k)).startConnect _ _)

lemma dialSeeds_gossipSteps (n : Node S) : GossipSteps env n (dialSeeds (managerSink env k) n) := by
  unfold dialSeeds
  split_ifs
  · exact .refl
  · refine .foldl (fun n s => ?_) _ n
    unfold dialSeed
    split
    · exact .aside rfl
    · exact (startDialAddr_gossipSteps _ n.bump).after rfl

lemma maybeDial_gossipSteps (id : PeerId) (n : Node S) : GossipSteps env n (maybeDial (managerSink env k) id n) := by
  unfold maybeDial
  extract_lets r
  split_ifs
  iterate 5 exact .refl
  exact (newOutbound_gossipSteps r.dialAddr n).trans
    (((respects_gossipSteps (closing_gossipSteps env k)).startConnect _ _).after rfl)

lemma onDiscovered_gossipSteps (id : PeerId) (port : UInt16) (ip : UInt32) (n : Node S) :
    GossipSteps env n (onDiscovered (managerSink env k) id port ip n) := by
  unfold onDiscovered
  extract_lets r m
  have hm : GossipSteps env n m := .aside rfl
  split_ifs
  · exact hm.trans (maybeDial_gossipSteps id _)
  · exact (hm.trans (GossipSteps.trans (.notify (by simp [Notice.names])) .knownSnapshot)).trans
      (maybeDial_gossipSteps id _)

lemma acceptConnection_gossipSteps (addr : Addr) (n : Node S) :
    GossipSteps env n (acceptConnection (managerSink env k) addr n) := by
  unfold acceptConnection
  extract_lets p c m
  have ha : GossipSteps env n (Node.bump { n with heap := n.heap.insert p c }) :=
    .single (.alloc p c (Node.freshPtr_free env n) ⟨rfl, ConnState.noConfusion⟩ rfl)
  exact (ha.trans ((respects_gossipSteps (closing_gossipSteps env k)).startInbound p _)).trans (.aside rfl)

lemma onReconnectTimer_gossipSteps (id : PeerId) (n : Node S) :
    GossipSteps env n (onReconnectTimer (managerSink env k) id n) := by
  unfold onReconnectTimer
  split
  · exact .refl
  · split_ifs
    · exact .refl
    · exact .refl
    · exact .aside rfl
    · exact (maybeDial_gossipSteps id n.bump).after rfl

lemma sweepBody_gossipSteps (now : ℤ) (n : Node S) (p : Ptr) :
    GossipSteps env n (sweepBody (managerSink env k) now n p) := by
  have hC := closing_gossipSteps env k
  unfold sweepBody
  extract_lets cfg
  split
  · have h : GossipSteps env n (maybeHeartbeat (managerSink env k) p now cfg.heartbeatInterval n) :=
      (respects_gossipSteps hC).maybeHeartbeat p now cfg.heartbeatInterval n
    split_ifs
    · exact h.trans (closeGracefully_gossipSteps hC p _)
    · exact h
  iterate 3
    split_ifs
    · exact closeGracefully_gossipSteps hC p n
    · exact .refl
  exact .refl

lemma loseSilent_gossipSteps (now : ℤ) (n : Node S) : GossipSteps env n (loseSilent (managerSink env k) now n) := by
  unfold loseSilent
  extract_lets toLose m
  have hm : GossipSteps env n m := .aside rfl
  split_ifs
  · exact hm
  · refine hm.trans (GossipSteps.trans (.foldl (fun n id => ?_) toLose m) .knownSnapshot)
    exact (GossipSteps.notify (n := { n with records := n.records.erase id }) (by simp [Notice.names])).after rfl

lemma tickIdentity_gossipSteps (now : ℤ) (n : Node S) : GossipSteps env n (tickIdentity (managerSink env k) now n) := by
  unfold tickIdentity floodSelfIdentity
  split_ifs
  · exact .refl
  · extract_lets r m
    have hm : GossipSteps env n m := (forwardExcept_gossipSteps (closing_gossipSteps env k) _ _ r.2).after rfl
    exact hm.trans (.aside rfl)
  · exact .refl

lemma tick_learns (n : Node S) : Learns env V n (tick (managerSink env k) n) := by
  have hC := closing_gossipSteps env k
  unfold tick
  extract_lets now n₁ n₂
  split_ifs
  · exact .refl n
  · have h₀ : GossipSteps env n (sweep (managerSink env k) now n.bump) := by
      obtain ⟨l, -, hl⟩ := sweepFrom_foldl (managerSink env k) now n.bump.conns n.bump
      rw [sweep, hl]
      exact (GossipSteps.foldl (sweepBody_gossipSteps now) l n.bump).after rfl
    have h₁ : GossipSteps env n n₁ := h₀.trans
      ((loseSilent_gossipSteps now _).trans (maintainStaticPeers_gossipSteps hC _))
    have hm : Learns env V n₁ (tickMembership (managerSink env k) now n₁) :=
      applyMembership_learns (Membership.tick_rework _ _)
    have h₂ : GossipSteps env (tickMembership (managerSink env k) now n₁) n₂ := by
      refine (tickIdentity_gossipSteps (k := k) now _).trans ?_
      unfold n₂ dialIfIsolated
      split_ifs
      · exact dialSeeds_gossipSteps _
      · exact .refl
    exact (h₁.learns.trans (hm.trans h₂.learns)).trans (GossipSteps.learns (.aside rfl))

lemma reapDead_learns (n : Node S) : Learns env V n (reapDead n) := by
  refine ⟨fun hk p c hp => hk p c ?_, id, fun _ _ h => .inl h⟩
  unfold reapDead at hp
  dsimp only at hp
  generalize n.heap = h, n.reap = l at hp ⊢
  induction l generalizing h with
  | nil => exact hp
  | cons q l ih =>
    have hq : (if q ∈ n.conns then h.erase q else h).get? p = some c := ih _ hp
    split_ifs at hq
    · exact (Dict.get?_of_erase hq).2
    · exact hq

lemma fireTimer_learns (kind : TimerKind) (n : Node S) : Learns env V n (fireTimer (managerSink env k) kind n) := by
  cases kind with
  | tick => exact tick_learns n
  | reap => exact reapDead_learns n
  | reconnect id => exact (onReconnectTimer_gossipSteps id n).learns
  | evictSweep rearm =>
    refine GossipSteps.learns ?_
    unfold fireTimer evictTimer
    dsimp only
    split_ifs <;> exact .aside rfl

lemma shutdown_learns (n : Node S) : Learns env V n (shutdown (managerSink env k) n) := by
  have hd : GossipSteps env n (closedDown (managerSink env k) n) := by
    refine (GossipSteps.foldl (fun n p => ?_) n.conns { n with running := false }).after rfl
    split_ifs
    · exact closeGracefully_gossipSteps (closing_gossipSteps env k) p n
    · exact .refl
  refine hd.learns.trans ⟨fun _ p c hp => ?_, fun _ => Membership.spans_empty _, fun _ _ h => .inl h⟩
  cases (Dict.get?_empty p).symm.trans hp

def Event.frame (env : Env S) (n : Node S) : Event → Option (Ptr × Frame S)
  | .plaintextTurn p =>
    match tryDecodeFrame (n.conn p).inBuf env.cfg.maxMessageBytes with
    | .ok f _ => some (p, f)
    | _ => none
  | .secureTurn p =>
    match tryDecodeFrame (n.conn p).plainBuf env.cfg.maxMessageBytes with
    | .ok f _ => some (p, f)
    | _ => none
  | _ => none

lemma plaintextTurn_learns {n : Node S} {p : Ptr} (hp : (n.heap.get? p).isSome)
    (hV : ∀ f, Event.frame env n (.plaintextTurn p) = some (p, f) → ∀ id s, Brings env (n.conn p) f id s → V id s) :
    Learns env V n (plaintextTurn (managerListener env k) p n).world := by
  unfold plaintextTurn
  split
  · exact .refl n
  · exact (fail_gossipSteps (closing_gossipSteps env k) p _ _ _ n).learns
  · next f consumed hdec =>
    have hf : Event.frame env n (.plaintextTurn p) = some (p, f) := by
      rw [Event.frame, show tryDecodeFrame (n.conn p).inBuf env.cfg.maxMessageBytes = .ok f consumed from hdec]
    have h : Learns env V n (dispatch (managerListener env k) p f consumed .inBuf n).2 :=
      dispatch_learns hp (hV f hf) consumed .inBuf
    dsimp only
    split_ifs <;> exact h

lemma secureTurn_learns {n : Node S} {p : Ptr} (hp : (n.heap.get? p).isSome)
    (hV : ∀ f, Event.frame env n (.secureTurn p) = some (p, f) → ∀ id s, Brings env (n.conn p) f id s → V id s) :
    Learns env V n (secureTurn (managerListener env k) p n).world := by
  unfold secureTurn
  split
  · exact .refl n
  · exact (fail_gossipSteps (closing_gossipSteps env k) p _ _ _ n).learns
  · next f consumed hdec =>
    have hf : Event.frame env n (.secureTurn p) = some (p, f) := by
      rw [Event.frame, show tryDecodeFrame (n.conn p).plainBuf env.cfg.maxMessageBytes = .ok f consumed from hdec]
    have h : Learns env V n (dispatch (managerListener env k) p f consumed .plainBuf n).2 :=
      dispatch_learns hp (hV f hf) consumed .plainBuf
    dsimp only
    split_ifs <;> exact h

def Event.Brings (env : Env S) (n : Node S) (e : Event) (id : PeerId) (s : Bytes) : Prop :=
  ∃ p f, e.frame env n = some (p, f) ∧ (n.heap.get? p).isSome ∧ Multimaster.Brings env (n.conn p) f id s

lemma step_learns (n : Node S) (e : Event) : Learns env (e.Brings env n) n (step env n e) := by
  unfold step
  split_ifs with hdead
  · exact .refl n
  have hC := closing_gossipSteps env (depth n)
  have halive (p : Ptr) (hp : e.target = some p) : (n.heap.get? p).isSome := by
    rw [hp] at hdead
    have hp : (n.conn p).dead = false := by simpa using hdead
    rw [Node.get?_of_alive hp, Option.isSome_some]
  cases e with
  | discovered id port ip => exact (onDiscovered_gossipSteps id port ip n).learns
  | accept addr => exact (acceptConnection_gossipSteps addr n).learns
  | hangup p => exact (fail_gossipSteps hC p _ _ _ n).learns
  | connected p =>
    rw [perform]
    split_ifs
    · exact (onConnectComplete_gossipSteps hC p n).learns
    · exact .refl n
  | writable p =>
    rw [perform]
    split_ifs
    · exact .refl n
    · exact ((respects_gossipSteps hC).flushOutbound p n).learns
  | receive p l =>
    rw [perform]
    split_ifs
    · exact .refl n
    · exact GossipSteps.learns (modify_gossipSteps p (by intro; rfl) n)
  | eof p => exact (fail_gossipSteps hC p _ _ _ n).learns
  | recvError p err => exact (fail_gossipSteps hC p _ _ _ n).learns
  | plaintextTurn p =>
    rw [perform]
    split_ifs
    · exact .refl n
    · exact plaintextTurn_learns (halive p rfl) fun f hf id s h => ⟨p, f, hf, halive p rfl, h⟩
  | recordTurn p =>
    rw [perform]
    split_ifs
    · exact (recordTurn_gossipSteps p n).learns
    · exact .refl n
  | secureTurn p =>
    rw [perform]
    split_ifs
    · exact secureTurn_learns (halive p rfl) fun f hf id s h => ⟨p, f, hf, halive p rfl, h⟩
    · exact .refl n
  | timer i =>
    rw [perform]
    split
    · exact .refl n
    · have ht : GossipSteps env n { n with timers := n.timers.eraseIdx i } := .aside rfl
      exact ht.learns.trans (fireTimer_learns _ _)
  | broadcast payload =>
    have h : GossipSteps env n (originateBroadcast (managerSink env (depth n)) payload n) :=
      (applyRouter_gossipSteps _ n.bump).after rfl
    exact h.learns
  | send dst payload =>
    have h : GossipSteps env n (originateTargeted (managerSink env (depth n)) dst payload n) :=
      (applyRouter_gossipSteps _ n.bump).after rfl
    exact h.learns
  | shutdown => exact shutdown_learns n

lemma started_gossipSteps (env : Env S) : GossipSteps env (Node.initial env) (started env) := by
  unfold started start
  extract_lets cfg period n₁ targets n₂
  have h₂ : GossipSteps env n₁ n₂ := ((dialSeeds_gossipSteps { n₁ with staticTargets := _ }).trans
    (maintainStaticPeers_gossipSteps (closing_gossipSteps env _) _)).after rfl
  have h : GossipSteps env (Node.initial env) n₂ := h₂.after rfl
  exact h.trans (.aside rfl)

lemma run_append_one (env : Env S) (es : List Event) (e : Event) : run env (es ++ [e]) = step env (run env es) e := by
  rw [run, List.foldl_append]
  rfl

lemma keyed_run (env : Env S) (es : List Event) : Keyed env (run env es) := by
  induction es using List.reverseRecOn with
  | nil => exact (started_gossipSteps env).keyed fun p c hp => nomatch (Dict.get?_empty p).symm.trans hp
  | append_singleton es e ih =>
    rw [run_append_one]
    exact (step_learns _ e).keyed ih

lemma spans_run (env : Env S) (es : List Event) : (run env es).membership.Spans env.self.nodeId := by
  induction es using List.reverseRecOn with
  | nil => exact (started_gossipSteps env).spans (Membership.spans_empty _)
  | append_singleton es e ih =>
    rw [run_append_one]
    exact (step_learns _ e).spans ih

lemma known_run (env : Env S) {es : List Event} {id : PeerId} {s : Bytes} (h : Known (run env es) id s) :
    ∃ l e r, es = l ++ e :: r ∧ e.Brings env (run env l) id s := by
  induction es using List.reverseRecOn with
  | nil =>
    rcases h.congr (started_gossipSteps env).heard with h | ⟨l, hl, -⟩
    · cases (Dict.get?_empty id).symm.trans h
    · cases hl
  | append_singleton es e ih =>
    rw [run_append_one] at h
    rcases (step_learns _ e).known id s h with h | hb
    · obtain ⟨l, e', r, rfl, hb⟩ := ih h
      exact ⟨l, e', r ++ [e], by simp, hb⟩
    · exact ⟨es, e, [], rfl, hb⟩

end Events

end Multimaster
