import Multimaster.Manager.DeskSteps

/-! What the frames that arrive ask of the router and the membership. -/

namespace Multimaster

variable {S : Suite}

section Router

variable {env : Env S} {k : ℕ}

lemma call_acts (cfg : MeshConfig) (own : PeerId) (r : GossipRouter) (e : ℤ × RouterOp) : ∃ ds fs : List (RouterAct S),
    (r.call cfg own e).2 = ds ++ fs ∧ (∀ a ∈ ds, ∃ src payload, a = .deliverLocal src payload) ∧
      ∀ a ∈ fs, a.told = none := by
  obtain ⟨now, op⟩ := e
  cases op with
  | data view fd =>
    change ∃ ds fs : List (RouterAct S), (r.onData cfg own now view fd).2 = ds ++ fs ∧ _
    unfold GossipRouter.onData
    extract_lets q
    by_cases hseen : q.1
    · exact ⟨[], [], by simp [hseen], nofun, nofun⟩
    · by_cases hz : view.dst.isZero
      · refine ⟨if view.src ≠ own then [.deliverLocal view.src view.payload] else [],
          if view.ttl > 1 then [.flood (GossipRouter.relay view) fd] else [], by simp [hseen, hz], ?_, ?_⟩
        · intro a ha
          split_ifs at ha
          · exact ⟨_, _, List.mem_singleton.mp ha⟩
          · cases ha
        · intro a ha
          split_ifs at ha
          · rw [List.mem_singleton.mp ha]
            rfl
          · cases ha
      · by_cases hd : view.dst = own
        · refine ⟨[.deliverLocal view.src view.payload], [],
            by rw [if_neg hseen, if_neg hz, if_pos hd, List.append_nil], fun a ha => ?_, nofun⟩
          exact ⟨_, _, List.mem_singleton.mp ha⟩
        · refine ⟨[], if view.ttl > 1 then [.route view.dst (GossipRouter.relay view) fd] else [],
            by simp [hseen, hz, hd], nofun, fun a ha => ?_⟩
          split_ifs at ha
          · rw [List.mem_singleton.mp ha]
            rfl
          · cases ha
  | broadcast payload =>
    refine ⟨[], _, rfl, nofun, fun a ha => ?_⟩
    rw [List.mem_singleton.mp ha]
    rfl
  | targeted dst payload =>
    change ∃ ds fs : List (RouterAct S), (r.originateTargeted cfg own now dst payload).2 = ds ++ fs ∧ _
    unfold GossipRouter.originateTargeted
    by_cases hd : dst = own
    · refine ⟨[.deliverLocal own payload], [], by simp [hd], fun a ha => ?_, nofun⟩
      exact ⟨_, _, List.mem_singleton.mp ha⟩
    · rw [if_neg hd]
      refine ⟨[], _, rfl, nofun, fun a ha => ?_⟩
      rw [List.mem_singleton.mp ha]
      rfl
  | sweep => exact ⟨[], [], rfl, nofun, nofun⟩

lemma delivered_eq {ds : List (RouterAct S)} (h : ∀ a ∈ ds, ∃ src payload, a = .deliverLocal src payload) (n : Node S) :
    ds.foldl (routerAct (managerSink env k)) n = n.notify (ds.filterMap RouterAct.told) := by
  induction ds generalizing n with
  | nil => simp [Node.notify]
  | cons a ds ih =>
    obtain ⟨src, payload, rfl⟩ := h a List.mem_cons_self
    rw [List.foldl_cons, ih fun b hb => h b (List.mem_cons_of_mem _ hb)]
    simp [routerAct, Node.notify, RouterAct.told]

lemma routerAct_inner {a : RouterAct S} (h : a.told = none) (n : Node S) :
    Inner env n (routerAct (managerSink env k) n a) := by
  cases a with
  | deliverLocal src payload => cases h
  | flood f fd => exact forwardExcept_inner (managerSink_heeds env k) f fd n
  | route dst f fd =>
    have hr : Inner env n (forwardTo (managerSink env k) dst f n).2 := forwardTo_inner (managerSink_heeds env k) dst f n
    simp only [routerAct]
    split_ifs
    · exact hr
    · exact hr.trans (forwardExcept_inner (managerSink_heeds env k) f fd _)

lemma applyRouter_calls (env : Env S) (k : ℕ) (op : RouterOp) (n : Node S) : ∃ m : Node S,
    m.desk = Desk.apply env n.desk (n.pos, .route op) ∧ n.pos ≤ m.pos ∧ Inner env m (applyRouter (managerSink env k)
      (n.router.call env.cfg env.self.nodeId (env.oracle.clock n.pos, op)) n.bump) := by
  obtain ⟨ds, fs, hacts, hds, hfs⟩ := call_acts (S := S) env.cfg env.self.nodeId n.router (env.oracle.clock n.pos, op)
  unfold applyRouter
  rw [hacts, List.foldl_append, delivered_eq hds]
  refine ⟨Node.notify (ds.filterMap RouterAct.told) { n.bump with
    router := (n.router.call (S := S) env.cfg env.self.nodeId (env.oracle.clock n.pos, op)).1 }, ?_, Nat.le_succ _, ?_⟩
  · have hall : (ds.filterMap RouterAct.told).filter Notice.ofGossip = ds.filterMap RouterAct.told := by
      refine List.filter_eq_self.mpr fun x hx => ?_
      obtain ⟨a, ha, hax⟩ := List.mem_filterMap.mp hx
      obtain ⟨src, payload, rfl⟩ := hds a ha
      cases hax
      rfl
    have hnone : fs.filterMap RouterAct.told = [] := List.filterMap_eq_nil_iff.mpr hfs
    have ht : (n.notices ++ ds.filterMap RouterAct.told).filter Notice.ofGossip =
        n.notices.filter Notice.ofGossip ++ (ds ++ fs).filterMap RouterAct.told := by
      rw [List.filter_append, hall, List.filterMap_append, hnone, List.append_nil]
    rw [← hacts] at ht
    exact congrArg (fun t => { n.desk with
      router := (n.router.call (S := S) env.cfg env.self.nodeId (env.oracle.clock n.pos, op)).1, told := t }) ht
  · generalize Node.notify _ _ = m
    clear hacts
    induction fs generalizing m with
    | nil => exact .refl m
    | cons a fs ih =>
      exact (routerAct_inner (hfs a List.mem_cons_self) m).trans
        (ih (fun b hb => hfs b (List.mem_cons_of_mem a hb)) _)

end Router

section Listening

variable {env : Env S} {k : ℕ} {n : Node S}

lemma sendIdentity_inner (p : Ptr) (n : Node S) : Inner env n (sendIdentity (managerSink env k) p n) := by
  unfold sendIdentity
  split_ifs
  · exact ((managerSink_heeds env k).enqueue p _ _).after (le_refl n.pos) rfl
  · exact .refl n

lemma bindStatic_inner (p : Ptr) (pid : PeerId) (n : Node S) : Inner env n (bindStatic env p pid n) := by
  unfold bindStatic
  split
  · exact .refl n
  · next i _ =>
    dsimp only
    split
    · exact .aside le_rfl rfl
    · next t _ =>
      split
      · exact .aside le_rfl rfl
      · next old _ =>
        split_ifs
        · exact .aside le_rfl rfl
        · have h : Inner env n (Node.emitKnownSnapshot env { n with records := n.records.erase old }) :=
            (DeskSteps.knownSnapshot _).after (le_refl n.pos) rfl
          exact h.trans (.aside le_rfl rfl)

lemma learnRecord_inner (p : Ptr) (pid : PeerId) (h : Hello S) (fromStatic : Bool) (n : Node S) :
    Inner env n (learnRecord env p pid h fromStatic n) := by
  unfold learnRecord
  extract_lets m
  have hm : Inner env n m := .aside (Nat.le_succ _) rfl
  split_ifs
  · exact hm
  · exact hm.trans (.trans (.notify _ (by simp [Notice.ofGossip])) (.knownSnapshot _))

lemma takeLink_inner (p : Ptr) (pid : PeerId) (h : Hello S) (existing : Option Ptr) (n : Node S) :
    Inner env n (takeLink (managerSink env k) p pid h existing n) := by
  have hR := managerSink_heeds env k
  unfold takeLink
  extract_lets wasConnected n₁ n₂
  have hname : Inner env (installLink p pid n) (learnName pid h (installLink p pid n)) := by
    unfold learnName
    split_ifs
    · exact .snapshotNames (fun _ _ => trivial) _ pid h.nodeName
    · exact .refl _
  have h₁ : Inner env n n₁ := (hname.trans (sendIdentity_inner p _)).after le_rfl rfl
  have h₂ : Inner env n₁ n₂ := by
    unfold n₂
    cases existing with
    | none => exact .refl n₁
    | some q => exact (hR.closeGracefully q (n₁.deref [q])).after le_rfl rfl
  split_ifs
  · exact h₁.trans h₂
  · refine (h₁.trans h₂).trans ?_
    exact .trans (.trans (.notify _ (by simp [Notice.ofGossip])) (.connectedSnapshot _))
      (updateLocalMembership_inner hR _)

lemma onPeerHandshake_inner (p : Ptr) (h : Hello S) (n : Node S) :
    Inner env n (onPeerHandshake (managerSink env k) p h n) := by
  have hR := managerSink_heeds env k
  unfold onPeerHandshake
  extract_lets self pid fromStatic m
  have hm : Inner env n m := (bindStatic_inner p pid n).trans (learnRecord_inner p pid h fromStatic _)
  split_ifs
  · exact hR.closeGracefully p n
  · refine hm.trans ?_
    split
    · exact takeLink_inner p pid h none m
    · next q _ =>
      split_ifs
      · exact (hR.closeGracefully p (m.deref [q])).after le_rfl rfl
      · exact (takeLink_inner p pid h (some q) (m.deref [q])).after le_rfl rfl

lemma onPeerIdentity_inner (p : Ptr) (rec : IdentityRecord S) (n : Node S) :
    Inner env n (onPeerIdentity (managerSink env k) p rec n) := by
  unfold onPeerIdentity
  extract_lets self origin n₁ n₂
  have h₁ : Inner env n n₁ := .aside le_rfl rfl
  have h₂ : Inner env n₁ n₂ := by
    unfold n₂
    split_ifs
    · exact .refl n₁
    · exact .snapshotNames (fun _ _ => trivial) n₁ origin rec.name
  split_ifs
  iterate 5 exact .refl n
  exact (h₁.trans h₂).trans (forwardExcept_inner (managerSink_heeds env k) _ _ n₂)

theorem managerListener_heeds (env : Env S) (k : ℕ) : (managerListener env k).Heeds (Inner env) where
  toHeeds := managerSink_heeds env k
  handshake n p h := onPeerHandshake_inner p h n
  membership n p m := by
    have h := applyMembership_inner (managerSink_heeds env k) (.onRemoteRecord m (some p)) trivial (n := n.bump)
      (i := n.pos) rfl (Membership.onRemoteRecord_members _ _ _ _ _)
    exact h.after (Nat.le_succ n.pos) rfl
  identity n p r := onPeerIdentity_inner p r n

lemma stamp_state {p : Ptr} (hal : (n.conn p).dead = false) (now : ℤ) (l : List (Source × Frame S)) :
    ((n.bump.setConn p { n.conn p with lastRecv := now, dispatched := l }).conn p).state = (n.conn p).state := by
  have hsome : (n.bump.heap.get? p).isSome := by rw [Node.bump, Node.get?_of_alive hal, Option.isSome_some]
  rw [Node.conn_setConn_self _ hsome]

lemma dispatch_dataView {p : Ptr} (hal : (n.conn p).dead = false) (hest : (n.conn p).state = .established)
    (d : DataView)
    (consumed : ℕ) (src : Source) : ∃ m : Node S,
      m.desk = Desk.apply env n.desk (n.pos + 1, .route (.data d (some p))) ∧ n.pos + 1 ≤ m.pos ∧
        Inner env m (dispatch (managerListener env k) p (.data d) consumed src n).2 := by
  unfold dispatch
  extract_lets now w alive
  have hst : ¬((managerListener env k).conn w p).state ≠ .established := by
    rw [not_not]
    exact (stamp_state hal now _).trans hest
  obtain ⟨m, hm, hpos, hrest⟩ := applyRouter_calls env k (.data d (some p)) w
  refine ⟨m, hm, hpos, ?_⟩
  dsimp only
  rw [if_neg hst]
  split_ifs
  · exact hrest.trans ((managerSink_heeds env k).modify _ p _)
  · exact hrest

lemma dispatch_early {p : Ptr} (hal : (n.conn p).dead = false) (hne : (n.conn p).state ≠ .established) (d : DataView)
    (consumed : ℕ) (src : Source) : Inner env n (dispatch (managerListener env k) p (.data d) consumed src n).2 := by
  unfold dispatch
  extract_lets now w alive
  have hst : ((managerListener env k).conn w p).state ≠ .established :=
    fun h => hne ((stamp_state hal now _).symm.trans h)
  dsimp only
  rw [if_pos hst]
  exact ((managerSink_heeds env k).fail p _ _ _ w).after (Nat.le_succ n.pos) rfl

end Listening

end Multimaster
