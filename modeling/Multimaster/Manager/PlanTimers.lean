import Multimaster.Manager.PlanFrames

/-! The dials and the timers of a node as sequences of plan steps. -/

namespace Multimaster

variable {S : Suite} {env : Env S} {o : Node S} {e : Option Event} {k : ℕ}

section Dials

lemma startDialAddr_planRun (addr : Addr) (n : Node S) :
    PlanRun env o e k n (startDialAddr (managerSink env k) addr n) := by
  have hopen : PlanRun env o e k n (newOutbound env addr n).2 :=
    .of_planStep (fun s => .outbound (s := s.on n) addr) rfl
  exact hopen.trans (.of_planCall ((admits_planCall env o e k).startConnect _ _))

lemma dialSeeds_planRun (n : Node S) : PlanRun env o e k n (dialSeeds (managerSink env k) n) := by
  unfold dialSeeds
  split_ifs
  · exact .refl n
  · refine .foldl (fun n s => ?_) _ n
    unfold dialSeed
    split
    · exact .of_beside (.bump n)
    · exact .trans (.of_beside (.bump n)) (startDialAddr_planRun _ _)

lemma maybeDial_eq (id : PeerId) (n : Node S) : maybeDial (managerSink env k) id n =
    if MayDial env id n then (startConnect (managerSink env k) (n.freshPtr env) (dialled env id n)).2 else n := by
  by_cases hm : MayDial env id n
  · rw [if_pos hm]
    obtain ⟨hrun, hid, hst, haddr, hfan⟩ := hm
    have hrun' : ¬(!n.running) = true := by simp [hrun]
    have haddr' : ¬(!(n.record id).haveAddr) = true := by simp [haddr]
    exact (if_neg hrun').trans ((if_neg hid).trans ((if_neg hst).trans ((if_neg haddr').trans (if_neg hfan))))
  · rw [if_neg hm]
    unfold maybeDial
    extract_lets r
    split_ifs with hrun hid hst haddr hfan
    iterate 5 rfl
    exact absurd ⟨by simpa using hrun, hid, hst, by simpa using haddr, hfan⟩ hm

lemma maybeDial_planSteps {n : Node S} {ev : Event} {id : PeerId} (he : e = some ev)
    (hc : ev.calling env o = some (id, n)) (hr : (n.records.get? id).isSome) (hf : Fits k n) :
    PlanSteps env o e (.idle n) (.idle (maybeDial (managerSink env k) id n)) := by
  rw [maybeDial_eq]
  split_ifs with hm
  · have hfit : Fits k (dialled env id n) := (Dict.length_keys_insert _ hr).trans_lt hf
    have hstart : PlanRun env o e k (dialled env id n)
        (startConnect (managerSink env k) (n.freshPtr env) (dialled env id n)).2 :=
      .of_planCall ((admits_planCall env o e k).startConnect _ _)
    exact .head (.dial ev id he hc hm) ((hstart hfit).1 (.idle n))
  · exact .refl

lemma onDiscovered_planSteps (hf : o.records.keys.length + 1 < k) {id : PeerId} {port : UInt16} {ip : UInt32}
    (he : e = some (.discovered id port ip)) :
    PlanSteps env o e (.idle o) (.idle (onDiscovered (managerSink env k) id port ip o)) := by
  have hsome : ((met env id port ip o).records.get? id).isSome := by
    rw [met, recorded_some, Option.isSome_some]
  have hfit : Fits k (met env id port ip o) := (recorded_length id _ o).trans_lt hf
  exact .head (.meet id port ip he) (maybeDial_planSteps he rfl hsome hfit)

lemma sendHello_spoken {n : Node S} {p : Ptr} (hf : Fits k n) (s : Instant S) :
    PlanSteps env o e ((s.on n).owing (.speak p)) (s.on (sendHello (managerSink env k) p n)) := by
  let c := n.conn p
  let keys := if c.secure then genEphemeral (env.oracle.secret n.pos) else c.ephKeys
  let f := Frame.hello c.inbound (env.self.hello { c with ephKeys := keys })
  have hkeys : PlanRun env o e k n ((managerSink env k).modify p (fun c => { c with ephKeys := keys }) n.bump) :=
    .trans (.of_beside (.bump n)) (.tend rfl)
  have hspeaks : Speaks env o e f := speaks_of_ne fun _ (h : Frame.hello _ _ = _) => by cases h
  have hnext := (hkeys hf).1 ((s.on n).owing (.speak p))
  exact hnext.trans (transmit_spoken (.plain f) hspeaks (hkeys hf).2 s)

lemma acceptConnection_planSteps (hf : Fits k o) {addr : Addr} (he : e = some (.accept addr)) :
    PlanSteps env o e (.idle o) (.idle (acceptConnection (managerSink env k) addr o)) := by
  let p := o.freshPtr env
  let m : Node S := { o with heap := o.heap.insert p (inboundConn env addr o) }
  let s : Instant S := (Instant.idle m).owing (.adopt p)
  have hfirst : PlanStep env o e (.idle o) (s.owing (.speak p)) := .construct addr he
  unfold acceptConnection startInbound
  extract_lets p' c ok w₁ w₂ n₁
  have h₁ : PlanRun env o e k m w₂ := by
    refine .trans (.of_beside (m := w₁) ⟨rfl, (Nat.le_succ _).trans (Nat.le_succ _)⟩) ?_
    unfold w₂
    split_ifs
    · exact .tend rfl
    · exact .refl w₁
  have hspeak : PlanSteps env o e ((s.on w₂).owing (.speak p)) (s.on (sendHello (managerSink env k) p w₂)) :=
    sendHello_spoken (h₁ hf).2 s
  have hadopt : PlanStep env o e (s.on n₁) (.idle { n₁ with conns := n₁.conns ++ [p] }) :=
    .adopt (s := .idle n₁) p
  exact .head hfirst (((h₁ hf).1 (s.owing (.speak p))).trans (.tail hspeak hadopt))

lemma onConnectComplete_planSteps {n : Node S} {p : Ptr} (hf : Fits k n) (hs : (n.conn p).state = .connectingOut) :
    PlanSteps env o e (.idle n) (.idle (onConnectComplete (managerSink env k) p n)) := by
  unfold onConnectComplete
  extract_lets err n₁ n₂ ok n₃ n₄
  have h₁ : PlanRun env o e k n n₁ := .of_beside (.bump n)
  split_ifs
  · exact ((h₁.trans (fail_planRun env o e k p _ _ _ n₁)) hf).1 (.idle n)
  · have hconnect : PlanStep env o e (.idle n₁) ((Instant.idle n₂).owing (.speak p)) :=
      .connect (s := .idle n₁) p hs
    have h₃ : PlanRun env o e k n₂ n₄ := by
      refine .trans (.of_beside (.bump n₂)) ?_
      unfold n₄
      split_ifs
      · exact .tend rfl
      · exact .refl n₃
    have hfit : Fits k n₂ := hf
    have htail := (h₃ hfit).1 ((Instant.idle n₂).owing (.speak p))
    exact ((h₁ hf).1 (.idle n)).trans (.head hconnect (htail.trans (sendHello_spoken (h₃ hfit).2 (.idle n))))

end Dials

section Timers

variable {i : ℕ}

lemma onReconnectTimer_planSteps (he : e = some (.timer i)) {d : ℤ} {id : PeerId}
    (ht : o.timers[i]? = some (d, .reconnect id)) (hf : Fits k o) : PlanSteps env o e
      (.idle { o with timers := o.timers.eraseIdx i })
      (.idle (onReconnectTimer (managerSink env k) id { o with timers := o.timers.eraseIdx i })) := by
  generalize hn : ({ o with timers := o.timers.eraseIdx i } : Node S) = n
  have hfit : Fits k n := hn ▸ hf
  unfold onReconnectTimer
  cases hr : n.records.get? id with
  | none => exact .refl
  | some r =>
    have hbump : PlanRun env o e k n n.bump := .of_beside (.bump n)
    dsimp only
    split_ifs with hrun hst hold
    · exact .refl
    · exact .refl
    · exact (hbump hfit).1 (.idle n)
    · have hwant : StillWanted env id n := ⟨r, hr, by simpa using hrun, hst, hold⟩
      have hcall : Event.calling env o (.timer i) = some (id, n.bump) := by
        subst hn
        simp only [Event.calling, ht]
        exact if_pos hwant
      have hsome : (n.bump.records.get? id).isSome := by rw [Node.bump, hr, Option.isSome_some]
      exact ((hbump hfit).1 (.idle n)).trans (maybeDial_planSteps he hcall hsome (hbump hfit).2)

lemma sweepBody_planCall (now : ℤ) (n : Node S) (p : Ptr) :
    PlanCall env o e k n (sweepBody (managerSink env k) now n p) := by
  have hbeat : Speaks env o e (.heartbeat : Frame S) := speaks_of_ne fun _ h => by cases h
  have hclose := closeGracefully_planCall env o e k p n
  unfold sweepBody
  extract_lets cfg
  split
  · have h := (admits_planCall env o e k).maybeHeartbeat p now cfg.heartbeatInterval hbeat n
    split_ifs
    · exact h.trans (closeGracefully_planCall env o e k p _)
    · exact h
  iterate 3
    split_ifs
    · exact hclose
    · exact .refl n
  exact .refl n

lemma loseSilent_planRun (he : e = some (.timer i)) (n : Node S) :
    PlanRun env o e k n (loseSilent (managerSink env k) (env.oracle.clock o.pos) n) := by
  unfold loseSilent
  extract_lets toLose m
  have hbump : PlanRun env o e k n m := .of_beside (.bump n)
  split_ifs
  · exact hbump
  · refine hbump.trans fun hm => ⟨fun s => .single (.lose (s := s.on m) i toLose he ?_ ?_),
      (length_loseRecords _ m).trans_lt hm⟩
    · -- the keys of the records are distinct, whatever the order in which they are visited
      have hperm := (reorder_perm (env.oracle.order n.pos) n.records.toList).map Prod.fst
      rw [Dict.map_fst_toList] at hperm
      refine List.Nodup.sublist (filterMap_sublist_map (fun e id he => ?_) _) (hperm.nodup_iff.mpr n.records.nodup_keys)
      split_ifs at he
      exact (Option.some.inj he).symm
    · intro id hid
      obtain ⟨x, hx, hid⟩ := List.mem_filterMap.mp hid
      split_ifs at hid with h₁ h₂ h₃
      cases hid
      exact ⟨x.2, Dict.mem_toList.mp ((mem_reorder _ _ _).mp hx), by simpa using h₁, fun h => h₂ (.inl h), h₃⟩

lemma tickIdentity_planCall (now : ℤ) (n : Node S) :
    PlanCall env o e k n (tickIdentity (managerSink env k) now n) := by
  unfold tickIdentity floodSelfIdentity
  split_ifs
  · exact .refl n
  · extract_lets r m
    refine .trans (m := r.2) (.of_beside ⟨rfl, le_rfl⟩) (.trans (m := m) ?_ (.of_beside ⟨rfl, Nat.le_succ _⟩))
    exact forwardExcept_planCall (admits_planCall env o e k) (speaks_own rfl) _ _
  · exact .refl n

lemma arrange_planRun (delay : ℤ) {kind : TimerKind} (hk : ∀ id, kind ≠ .reconnect id) (n : Node S) :
    PlanRun env o e k n (n.addTimer env delay kind) :=
  .of_planStep (fun s => .arrange (s := s.on n) delay kind hk) rfl

lemma tick_planRun (he : e = some (.timer i)) {n : Node S} (hpos : n.pos = o.pos) :
    PlanRun env o e k n (tick (managerSink env k) n) := by
  unfold tick
  extract_lets now n₁ n₂
  have hnow : now = env.oracle.clock o.pos := by
    rw [← hpos]
    rfl
  split_ifs
  · exact .refl n
  · have hsweep : PlanCall env o e k n (sweep (managerSink env k) now n.bump) := by
      obtain ⟨l, -, hl⟩ := sweepFrom_foldl (managerSink env k) now n.bump.conns n.bump
      rw [sweep, hl]
      exact .trans (.of_beside (.bump n)) (.foldl (sweepBody_planCall now) _ _)
    have h₁ : PlanRun env o e k n n₁ := by
      refine .trans (.of_planCall hsweep) (.trans ?_
        (.of_planCall (maintainStaticPeers_planCall (admits_planCall env o e k) _)))
      rw [hnow]
      exact loseSilent_planRun he _
    have h₂ : PlanRun env o e k n₁ n₂ := by
      have hmem : PlanCall env o e k n₁ (tickMembership (managerSink env k) now n₁) :=
        applyMembership_planCall (admits_planCall env o e k) (Membership.tick_members _ _ _ _) (tick_speaks _ _ _ _) n₁
      refine .trans (.of_planCall (hmem.trans (tickIdentity_planCall now _))) ?_
      unfold n₂ dialIfIsolated
      split_ifs
      · exact dialSeeds_planRun _
      · exact .refl _
    exact (h₁.trans h₂).trans (arrange_planRun _ (fun _ h => by cases h) _)

lemma evictTimer_planRun (rearm : Bool) (n : Node S) :
    PlanRun env o e k n (evictTimer (managerSink env k) rearm n) := by
  unfold evictTimer
  extract_lets period now m
  have hm : PlanRun env o e k n m := .of_beside ⟨rfl, Nat.le_succ _⟩
  split_ifs
  · exact hm.trans (arrange_planRun _ (fun _ h => by cases h) _)
  · exact hm

lemma fireTimer_planSteps (he : e = some (.timer i)) {t : ℤ × TimerKind} (ht : o.timers[i]? = some t) (hf : Fits k o) :
    PlanSteps env o e (.idle o)
      (.idle (fireTimer (managerSink env k) t.2 { o with timers := o.timers.eraseIdx i })) := by
  have hfire : PlanStep env o e (.idle o) (.idle { o with timers := o.timers.eraseIdx i }) := .fire i t he ht
  obtain ⟨d, kind⟩ := t
  refine .head hfire ?_
  let n : Node S := { o with timers := o.timers.eraseIdx i }
  have hn : Fits k n := hf
  cases kind with
  | tick =>
    have htick : PlanRun env o e k n (tick (managerSink env k) n) := tick_planRun he rfl
    exact (htick hn).1 (.idle n)
  | reap => exact .single (.reap i d he ht)
  | reconnect id => exact onReconnectTimer_planSteps he ht hf
  | evictSweep rearm => exact (evictTimer_planRun rearm n hn).1 (.idle n)

end Timers

end Multimaster
