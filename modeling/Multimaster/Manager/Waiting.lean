import Multimaster.Manager.Soundness

/-! A peer that waits for its reconnect timer is dialled before it is given up. -/

namespace Multimaster

variable {S : Suite} {env : Env S} {o : Node S} {e : Option Event}

section Waiting

variable {s t : Instant S} {id : PeerId}

lemma dialing_of_timer {k : ℕ} {d : ℤ} {r : PeerRecord} (hfan : env.cfg.fanout = 0) (hrun : o.running = true)
    (ht : o.timers[k]? = some (d, .reconnect id)) (hr : o.records.get? id = some r) (hs : r.state = .disconnected)
    (haddr : r.haveAddr = true) (hid : r.id ≠ env.self.nodeId)
    (hl : env.oracle.clock o.pos ≤ r.lastSeen + env.cfg.peerLostTimeout) :
    ∃ p, (Event.timer k).dialing env o = some (id, p) := by
  have hw : StillWanted env id { o with timers := o.timers.eraseIdx k } := by
    refine ⟨r, hr, hrun, by simp [hs], ?_⟩
    change ¬env.oracle.clock o.pos - r.lastSeen > _
    omega
  have hrec : (Node.bump { o with timers := o.timers.eraseIdx k }).record id = r := by
    change (o.records.get? id).getD { id } = r
    rw [hr, Option.getD_some]
  have hm : MayDial env id (Node.bump { o with timers := o.timers.eraseIdx k }) := by
    rw [MayDial, hrec]
    exact ⟨hrun, hid, by simp [hs], haddr, by simp [hfan]⟩
  refine ⟨_, dialing_of_calling (n := Node.bump { o with timers := o.timers.eraseIdx k }) ?_ hm⟩
  simp only [Event.calling, ht, if_pos hw]

lemma Owed.now {n : Node S} {now : ℤ} (h : Owed env id now n) (hp : Punctual env n) :
    Owed env id (env.oracle.clock n.pos) n := by
  obtain ⟨r, hr, hstatic | ⟨hs, hc, -, d, hd, hdue⟩⟩ := h
  · exact ⟨r, hr, .inl hstatic⟩
  · exact ⟨r, hr, .inr ⟨hs, hc, (hp _ hd).trans hdue, d, hd, hdue⟩⟩

structure Undialled (env : Env S) (o : Node S) (e : Option Event) (id : PeerId) : Prop where
  other : id ≠ env.self.nodeId
  fanout : env.cfg.fanout = 0
  running : o.running = true
  unbound : o.Unbound id
  open_ : e ≠ some .shutdown
  none : ∀ ev p, e = some ev → ev.dialing env o ≠ some (id, p)

lemma not_outdated (h : o.Unbound id) {p : Ptr} {pid : PeerId} : ¬Outdated o p pid id := by
  rintro ⟨i, t, -, ht, hl, -⟩
  exact h t (List.mem_of_getElem? ht) hl

lemma PlanStep.owed (hm : Monotone env.oracle.clock) (hu : Undialled env o e id) (hs : Sound env s)
    (h : PlanStep env o e s t) (ho : Owed env id (env.oracle.clock o.pos) s.node) :
    Owed env id (env.oracle.clock o.pos) t.node ∨ (∃ p, e = some (.plaintextTurn p)) ∧ .announce id ∈ t.due := by
  obtain ⟨r, hr, hcase⟩ := ho
  have hseen := hs.seen id r hr
  -- the timer is pending until it fires, and that would be a dial
  have pending (hst : r.state = .disconnected) (hnow : env.oracle.clock o.pos ≤ r.lastSeen + env.cfg.peerLostTimeout)
      {d : ℤ} (hd : (d, .reconnect id) ∈ s.node.timers) : (d, .reconnect id) ∈ t.node.timers := by
    have htimers := h.timers
    generalize hx : s.node.timers = x at htimers hd
    generalize t.node.timers = y at htimers ⊢
    cases htimers with
    | same => exact hd
    | other => exact List.mem_append_left _ hd
    | backoff => exact List.mem_append_left _ hd
    | fired i z he hz hso =>
      obtain ⟨hi, hiz⟩ := List.getElem?_eq_some_iff.mp hz
      rw [← (List.getElem_cons_eraseIdx_perm hi).mem_iff, hiz, List.mem_cons] at hd
      rcases hd with rfl | hd
      · subst hso
        have hid : r.id ≠ env.self.nodeId := by
          rw [hs.key id r hr]
          exact hu.other
        obtain ⟨p, hp⟩ := dialing_of_timer hu.fanout hu.running hz hr hst (hs.addr id r hr) hid hnow
        exact absurd hp (hu.none _ p he)
      · exact hd
  have hrw := h.rewrite id
  rw [hr] at hrw
  generalize hy : t.node.records.get? id = y at hrw
  have keep {q : PeerRecord} (hq : t.node.records.get? id = some q) (hstatic : r.isStatic = true → q.isStatic = true)
      (hst : r.state = .disconnected → q.state = .disconnected) (hc : q.conn = r.conn) (hl : r.lastSeen ≤ q.lastSeen) :
      Owed env id (env.oracle.clock o.pos) t.node := by
    refine ⟨q, hq, ?_⟩
    rcases hcase with hstat | ⟨hs', hc', hnow, d, hd, hdue⟩
    · exact .inl (hstatic hstat)
    · exact .inr ⟨hst hs', hc.trans hc', by omega, d, pending hs' hnow hd, by omega⟩
  cases hrw with
  | same => exact .inl (keep hy (fun h => h) (fun h => h) rfl le_rfl)
  | released _ p hc hd =>
    rcases hcase with hstat | ⟨-, hc', -⟩
    · exact .inl ⟨_, hy, .inl hstat⟩
    · cases hc'.symm.trans hc
  | armed _ k hd hst ht => exact .inl (keep hy (fun h => h) (fun h => h) rfl le_rfl)
  | dialed _ ev p he hcall hd hdue => exact absurd hd (hu.none ev p he)
  | learned _ p a b i hi hj he hn =>
    refine .inl (keep hy (fun h => ?_) (fun h => h) rfl (hseen.trans (hm hi)))
    change (r.isStatic || b) = true
    rw [h, Bool.true_or]
  | installed _ p he hn hi ht hdue hd hl =>
    rcases hcase with hstat | ⟨hst, -⟩
    · exact .inl ⟨_, hy, .inl hstat⟩
    · have hne : ¬(s.node.record id).state = .connected := by
        rw [Node.record, hr, Option.getD_some, hst]
        exact PeerState.noConfusion
      refine .inr ⟨⟨p, he⟩, ?_⟩
      rw [hd, linkDuties, if_neg hne]
      exact List.mem_append_right _ (List.mem_singleton_self _)
  | met _ port ip he hso =>
    subst hso
    refine .inl (keep hy (fun h => h) (fun h => ?_) rfl hseen)
    change (if r.state = .lost then PeerState.disconnected else r.state) = .disconnected
    rw [h]
    rfl
  | lost _ i he hstat hc hl =>
    rcases hcase with hstat' | ⟨-, -, hnow, -⟩
    · cases hstat.symm.trans hstat'
    · omega
  | dropped _ p pid he hn hout => exact absurd hout (not_outdated hu.unbound)
  | cleared _ he => exact absurd he hu.open_

structure Waits (env : Env S) (o : Node S) (e : Option Event) (id : PeerId) (s : Instant S) : Prop where
  told : o.links.count (.peerConnected id) ≤ s.node.links.count (.peerConnected id)
  kept : s.node.links.count (.peerLost id) = o.links.count (.peerLost id)
  state : (∃ p, e = some (.plaintextTurn p)) ∧ (.announce id ∈ s.due ∨
      o.links.count (.peerConnected id) < s.node.links.count (.peerConnected id)) ∨
    Owed env id (env.oracle.clock o.pos) s.node

lemma PlanStep.waits (hm : Monotone env.oracle.clock) (hu : Undialled env o e id) (hs : Sound env s)
    (h : PlanStep env o e s t) (hw : Waits env o e id s) : Waits env o e id t where
  told := hw.told.trans (h.count_links_le _)
  kept := by
    rcases h.count_lost id with hsame | ⟨i, r, he, hr, hstat, hl, -⟩
    · exact hsame.trans hw.kept
    · -- neither a record with a timer to come nor one that connects in this event is given up
      rcases hw.state with ⟨⟨p, hp⟩, -⟩ | ⟨r', hr', hcase⟩
      · cases he.symm.trans hp
      · cases hr'.symm.trans hr
        rcases hcase with hstat' | ⟨-, -, hnow, -⟩
        · cases hstat.symm.trans hstat'
        · omega
  state := by
    rcases hw.state with ⟨hturn, hdue | htold⟩ | ho
    · refine .inl ⟨hturn, ?_⟩
      rcases h.duty hdue with hdue | hdone
      · exact .inl hdue
      · right
        have hlinks : t.node.links = s.node.links ++ [.peerConnected id] := links_append
          (congrArg Node.notices hdone) (by simp [Notice.ofLink])
        rw [hlinks, List.count_append, List.count_singleton_self]
        exact Nat.lt_succ_of_le hw.told
    · exact .inl ⟨hturn, .inr (htold.trans_le (h.count_links_le _))⟩
    · rcases h.owed hm hu hs ho with ho | ⟨hturn, hdue⟩
      · exact .inr ho
      · exact .inl ⟨hturn, .inl hdue⟩

lemma step_waits {n : Node S} {ev : Event} (hm : Monotone env.oracle.clock) (hs : Sound env (.idle n))
    (hu : Undialled env n (some ev) id) (ho : Owed env id (env.oracle.clock n.pos) n) :
    (step env n ev).notices.count (.peerLost id) = n.notices.count (.peerLost id) ∧
      (n.notices.count (.peerConnected id) < (step env n ev).notices.count (.peerConnected id) ∨
        Owed env id (env.oracle.clock n.pos) (step env n ev)) := by
  simp only [← count_links (x := .peerLost id) rfl, ← count_links (x := .peerConnected id) rfl]
  obtain ⟨hw, -⟩ : Waits env n (some ev) id (.idle (step env n ev)) ∧ Sound env (.idle (step env n ev)) :=
    PlanSteps.preserves (I := fun s => Waits env n (some ev) id s ∧ Sound env s)
      (fun ha hs => ⟨ha.waits hm hu hs.2 hs.1, ha.sound hm hs.2⟩) (step_planSteps env n ev)
      ⟨⟨le_rfl, rfl, .inr ho⟩, hs⟩
  refine ⟨hw.kept, ?_⟩
  rcases hw.state with ⟨-, hdue | htold⟩ | ho
  · cases hdue
  · exact .inl htold
  · exact .inr ho

end Waiting

end Multimaster
