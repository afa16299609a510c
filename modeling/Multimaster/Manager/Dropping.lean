import Multimaster.Manager.Waiting

/-! A link that drops arms a reconnect timer. -/

namespace Multimaster

variable {S : Suite} {env : Env S} {o : Node S} {e : Option Event}

section Dropping

variable {s t : Instant S} {id : PeerId}

lemma lastHeard_le (hs : Sound env (.idle o)) : lastHeard env o id ≤ env.oracle.clock o.pos := by
  unfold lastHeard
  split_ifs with hc
  · cases hr : o.records.get? id with
    | none =>
      rw [Node.record, hr] at hc
      cases hc
    | some r =>
      rw [Node.record, hr, Option.getD_some]
      exact hs.seen id r hr
  · exact le_rfl

def Armed (env : Env S) (o : Node S) (e : Option Event) (id : PeerId) (s : Instant S) : Prop :=
  (∃ d, (d, .reconnect id) ∈ s.node.timers ∧ d ≤ env.oracle.clock (s.node.pos - 1) + longestDelay env.cfg) ∧
    ∀ p, e = some (.plaintextTurn p) → o.timers.length < s.node.timers.length

def Dropped (env : Env S) (o : Node S) (e : Option Event) (id : PeerId) (s : Instant S) : Prop :=
  ∃ r, s.node.records.get? id = some r ∧ (r.isStatic = true ∨ r.state = .disconnected ∧ r.conn = none ∧
    lastHeard env o id ≤ r.lastSeen ∧ (Armed env o e id s ∨ .rearm id false ∈ s.due ∧ r.reconnectAttempts = 0))

structure Drops (env : Env S) (o : Node S) (e : Option Event) (id : PeerId) (s : Instant S) : Prop where
  pos : o.pos ≤ s.node.pos
  length : ∀ p, e = some (.plaintextTurn p) → o.timers.length ≤ s.node.timers.length
  heard : ∀ r, s.node.records.get? id = some r → r.state = .connected → lastHeard env o id ≤ r.lastSeen
  told : s.node.links.count (.peerDisconnected id) = o.links.count (.peerDisconnected id) ∨
    id ≠ env.self.nodeId ∧ Dropped env o e id s
  lost : s.node.links.count (.peerLost id) = o.links.count (.peerLost id) ∨ (∃ i, e = some (.timer i)) ∧
    s.node.links.count (.peerDisconnected id) = o.links.count (.peerDisconnected id) ∧
    ∀ r, s.node.records.get? id = some r → r.state ≠ .connected

lemma PlanStep.length_timers (h : PlanStep env o e s t) {p : Ptr} (he : e = some (.plaintextTurn p)) :
    s.node.timers.length ≤ t.node.timers.length := by
  have htimers := h.timers
  generalize s.node.timers = x at htimers ⊢
  generalize t.node.timers = y at htimers ⊢
  cases htimers with
  | same => exact le_rfl
  | other => simp
  | backoff => simp
  | fired i z he' => cases he.symm.trans he'

lemma PlanStep.heard (hm : Monotone env.oracle.clock) (ho : Sound env (.idle o)) (hd : Drops env o e id s)
    (h : PlanStep env o e s t) {r : PeerRecord} (hr : t.node.records.get? id = some r) (hc : r.state = .connected) :
    lastHeard env o id ≤ r.lastSeen := by
  have since {i : ℕ} (hi : o.pos ≤ i) : lastHeard env o id ≤ env.oracle.clock i := (lastHeard_le ho).trans (hm hi)
  have hrw := h.rewrite id
  rw [hr] at hrw
  generalize hx : s.node.records.get? id = x at hrw
  cases hrw with
  | same => exact hd.heard r hx hc
  | released => cases hc
  | armed r₀ k hdue hst => exact absurd hc hst
  | dialed => cases hc
  | learned _ p a b i hi => exact since (hd.pos.trans hi)
  | installed r₀ p he hn hi ht hs' hd' hl =>
    obtain ⟨i, hi, hl⟩ := hl
    exact (since hi).trans_eq hl.symm
  | met => exact since le_rfl

lemma scheduleReconnect_dropped {n : Node S} {r : PeerRecord} (hr : n.records.get? id = some r) (hid : r.id = id)
    (hrun : n.running = true) (hs : r.state = .disconnected) (ha : r.reconnectAttempts = 0) :
    (scheduleReconnect env id n).records.get? id = some { r with reconnectAttempts := 1 } ∧
      (∃ d, (d, .reconnect id) ∈ (scheduleReconnect env id n).timers ∧
        d ≤ env.oracle.clock ((scheduleReconnect env id n).pos - 1) + longestDelay env.cfg) ∧
      n.timers.length < (scheduleReconnect env id n).timers.length := by
  have h : scheduleReconnect env id n = _ := scheduleReconnect_armed hr hrun (by simp [hs])
  rw [h, ha, hid]
  refine ⟨Dict.get?_insert_self .., ⟨_, List.mem_append_right _ (List.mem_singleton_self _), ?_⟩, ?_⟩
  · exact add_le_add le_rfl (backoff_first_le env.cfg _)
  · change n.timers.length < (n.timers ++ [_]).length
    simp

lemma calling_links {ev : Event} {n : Node S} (h : ev.calling env o = some (id, n)) : n.links = o.links := by
  unfold Event.calling at h
  split at h
  · cases h
    exact met_links _ _ _ o
  · split at h
    · split_ifs at h
      cases h
      rfl
    · cases h
  · cases h

structure Exposed (env : Env S) (o : Node S) (e : Option Event) (id : PeerId) : Prop where
  sound : Sound env (.idle o)
  now : env.oracle.clock o.pos ≤ lastHeard env o id + env.cfg.peerLostTimeout
  unbound : o.Unbound id
  open_ : e ≠ some .shutdown

lemma PlanStep.static (hx : Exposed env o e id) (h : PlanStep env o e s t) {r : PeerRecord}
    (hr : s.node.records.get? id = some r) (hstat : r.isStatic = true) :
    ∃ q, t.node.records.get? id = some q ∧ q.isStatic = true := by
  have hrw := h.rewrite id
  rw [hr] at hrw
  generalize t.node.records.get? id = y at hrw ⊢
  cases hrw with
  | lost _ i he hs => cases hs.symm.trans hstat
  | dropped _ p pid he hn hout => exact absurd hout (not_outdated hx.unbound)
  | cleared _ he => exact absurd he hx.open_
  | learned _ p a b i =>
    refine ⟨_, rfl, ?_⟩
    change (r.isStatic || b) = true
    rw [hstat, Bool.true_or]
  | _ => exact ⟨_, rfl, hstat⟩

lemma PlanStep.armed (hm : Monotone env.oracle.clock) (h : PlanStep env o e s t) (hne : s.node ≠ o)
    (ha : Armed env o e id s) : Armed env o e id t := by
  obtain ⟨⟨d, hd, hdue⟩, hlen⟩ := ha
  refine ⟨⟨d, ?_, ?_⟩, fun p he => (hlen p he).trans_le (h.length_timers he)⟩
  · have htimers := h.timers
    generalize s.node.timers = x at htimers hd
    generalize t.node.timers = y at htimers ⊢
    cases htimers with
    | same => exact hd
    | other => exact List.mem_append_left _ hd
    | backoff => exact List.mem_append_left _ hd
    | fired i z he hz hso => exact absurd hso hne
  · exact hdue.trans (add_le_add_left (hm (Nat.sub_le_sub_right h.pos_le 1)) _)

lemma PlanStep.dropped (hm : Monotone env.oracle.clock) (hx : Exposed env o e id) (hs : Sound env s)
    (hrun : s.node.running = true) (hd : Drops env o e id s)
    (hdiff : s.node.links.count (.peerDisconnected id) ≠ o.links.count (.peerDisconnected id))
    (h : PlanStep env o e s t) (hp : Dropped env o e id s) : Dropped env o e id t := by
  have hne : s.node ≠ o := fun hso => hdiff (by rw [hso])
  obtain ⟨r, hr, hstat | ⟨hst, hc, hl, hduty⟩⟩ := hp
  · obtain ⟨q, hq, hqs⟩ := h.static hx hr hstat
    exact ⟨q, hq, .inl hqs⟩
  · -- the duty may be discharged in this very step
    by_cases hdone : .rearm id false ∈ s.due ∧ r.reconnectAttempts = 0 ∧ t.node = scheduleReconnect env id s.node
    · obtain ⟨-, ha, ht⟩ := hdone
      obtain ⟨hq, htimer, hlen⟩ := scheduleReconnect_dropped hr (hs.key id r hr) hrun hst ha
      rw [← ht] at hq htimer hlen
      exact ⟨_, hq, .inr ⟨hst, hc, hl, .inl ⟨htimer, fun p he => (hd.length p he).trans_lt hlen⟩⟩⟩
    · have hduty' : Armed env o e id t ∨ .rearm id false ∈ t.due ∧ r.reconnectAttempts = 0 := by
        rcases hduty with ha | ⟨hdue, ha⟩
        · exact .inl (h.armed hm hne ha)
        · rcases h.duty hdue with hdue' | ht
          · exact .inr ⟨hdue', ha⟩
          · exact absurd ⟨hdue, ha, ht⟩ hdone
      have hrw := h.rewrite id
      rw [hr] at hrw
      generalize hy : t.node.records.get? id = y at hrw
      cases hrw with
      | same => exact ⟨_, hy, .inr ⟨hst, hc, hl, hduty'⟩⟩
      | released _ p hc' => cases hc.symm.trans hc'
      | armed _ k hdue hst' ht hpos =>
        refine ⟨_, hy, .inr ⟨hst, hc, hl, .inl ?_⟩⟩
        rcases hduty' with ha | ⟨-, ha⟩
        · exact ha
        · rw [ha, hs.key id r hr] at ht
          refine ⟨⟨_, ht ▸ List.mem_append_right _ (List.mem_singleton_self _), ?_⟩, fun p he => ?_⟩
          · exact add_le_add (hm (Nat.le_sub_of_add_le hpos)) (backoff_first_le env.cfg k)
          · rw [ht, List.length_append]
            exact Nat.lt_succ_of_le (hd.length p he)
      | dialed _ ev p he hcall hd' =>
        exact absurd (congrArg (List.count _) (calling_links hcall)) hdiff
      | learned _ p a b i hi =>
        exact ⟨_, hy, .inr ⟨hst, hc, (lastHeard_le hx.sound).trans (hm (hd.pos.trans hi)), hduty'⟩⟩
      | installed _ p he hn hi ht hsdue =>
        exfalso
        rcases hduty with ha | ⟨hdue, -⟩
        · exact (ha.2 p he).ne (congrArg List.length ht).symm
        · rw [hsdue] at hdue
          simp at hdue
      | met _ port ip he hso => exact absurd hso hne
      | lost _ i he hs' hc' hl' =>
        have := hx.now
        omega
      | dropped _ p pid he hn hout => exact absurd hout (not_outdated hx.unbound)
      | cleared _ he => exact absurd he hx.open_

lemma PlanStep.unconnected (h : PlanStep env o e s t) {i : ℕ} (he : e = some (.timer i))
    (hs : ∀ r, s.node.records.get? id = some r → r.state ≠ .connected) :
    ∀ r, t.node.records.get? id = some r → r.state ≠ .connected := by
  intro r hr
  have hrw := h.rewrite id
  rw [hr] at hrw
  generalize hx : s.node.records.get? id = x at hrw
  cases hrw with
  | same => exact hs r hx
  | released => exact PeerState.noConfusion
  | armed r₀ => exact hs r₀ hx
  | dialed => exact PeerState.noConfusion
  | learned _ p a b j hi hj he' => cases he.symm.trans he'
  | installed r₀ p he' => cases he.symm.trans he'
  | met _ port ip he' => cases he.symm.trans he'

lemma PlanStep.drops (hm : Monotone env.oracle.clock) (hx : Exposed env o e id) (hs : Sound env s)
    (hrun : s.node.running = true) (h : PlanStep env o e s t) (hd : Drops env o e id s) : Drops env o e id t where
  pos := hd.pos.trans h.pos_le
  length p he := (hd.length p he).trans (h.length_timers he)
  heard _ hr hc := h.heard hm hx.sound hd hr hc
  told := by
    by_cases hdiff : s.node.links.count (.peerDisconnected id) = o.links.count (.peerDisconnected id)
    · rcases h.count_disconnected hs.key id with hsame | ⟨r, hr, hst, ht, hdue⟩
      · exact .inl (hsame.trans hdiff)
      · obtain ⟨ha, hid⟩ := hs.connected id r hr hst
        refine .inr ⟨hid, _, ht, ?_⟩
        cases hstat : r.isStatic with
        | true => exact .inl rfl
        | false =>
          refine .inr ⟨rfl, rfl, hd.heard r hr hst, .inr ⟨?_, ha⟩⟩
          rw [hdue, hstat]
          exact List.mem_cons_self
    · obtain ⟨hid, hp⟩ := hd.told.resolve_left hdiff
      exact .inr ⟨hid, h.dropped hm hx hs hrun hd hdiff hp⟩
  lost := by
    rcases hd.lost with hkept | ⟨⟨i, he⟩, hdiff, hun⟩
    · rcases h.count_lost id with hsame | ⟨i, r, he, hr, hstat, hl, hnone, hdisc⟩
      · exact .inl (hsame.trans hkept)
      · -- the record cannot have let go of its link in this event
        rcases hd.told with hdiff | ⟨-, r', hr', hcase⟩
        · refine .inr ⟨⟨i, he⟩, hdisc.trans hdiff, fun q hq => ?_⟩
          cases hnone.symm.trans hq
        · cases hr'.symm.trans hr
          rcases hcase with hstat' | ⟨-, -, hheard, -⟩
          · cases hstat.symm.trans hstat'
          · have := hx.now
            omega
    · refine .inr ⟨⟨i, he⟩, ?_, h.unconnected he hun⟩
      rcases h.count_disconnected hs.key id with hsame | ⟨r, hr, hst, -⟩
      · exact hsame.trans hdiff
      · exact absurd hst (hun r hr)

lemma step_drops {n : Node S} {ev : Event} (hm : Monotone env.oracle.clock) (hs : Sound env (.idle n))
    (hrun : n.running = true) (hub : n.Unbound id) (hopen : ev ≠ .shutdown)
    (hdrop : n.notices.count (.peerDisconnected id) < (step env n ev).notices.count (.peerDisconnected id))
    (hfresh : endOf env n ev + longestDelay env.cfg ≤ lastHeard env n id + env.cfg.peerLostTimeout) :
    (step env n ev).notices.count (.peerLost id) = n.notices.count (.peerLost id) ∧ id ≠ env.self.nodeId ∧
      Owed env id (env.oracle.clock n.pos) (step env n ev) := by
  simp only [← count_links (x := .peerLost id) rfl, ← count_links (x := .peerDisconnected id) rfl] at hdrop ⊢
  have hpos := longestDelay_pos env.cfg
  have hlater : env.oracle.clock n.pos ≤ endOf env n ev := hm (le_max_left ..)
  have hend : env.oracle.clock ((step env n ev).pos - 1) ≤ endOf env n ev := hm (le_max_right ..)
  have hx : Exposed env n (some ev) id := ⟨hs, by omega, hub, fun h => hopen (by cases h; rfl)⟩
  have hstart : Drops env n (some ev) id (.idle n) := by
    refine ⟨le_rfl, fun _ _ => le_rfl, fun r hr hc => ?_, .inl rfl, .inl rfl⟩
    have hrec : n.record id = r := by rw [Node.record, show n.records.get? id = some r from hr, Option.getD_some]
    rw [lastHeard, hrec, if_pos hc]
  obtain ⟨hd, -⟩ : Drops env n (some ev) id (.idle (step env n ev)) ∧ Sound env (.idle (step env n ev)) ∧
      (step env n ev).running = true :=
    PlanSteps.preserves (I := fun s => Drops env n (some ev) id s ∧ Sound env s ∧ s.node.running = true)
      (fun ha h => ⟨ha.drops hm hx h.2.1 h.2.2 h.1, ha.sound hm h.2.1, ha.running hx.open_ h.2.2⟩)
      (step_planSteps env n ev) ⟨hstart, hs, hrun⟩
  refine ⟨hd.lost.resolve_right fun h => hdrop.ne h.2.1.symm, ?_⟩
  obtain ⟨hid, r, hr, hcase⟩ := hd.told.resolve_left hdrop.ne'
  refine ⟨hid, r, hr, ?_⟩
  rcases hcase with hstat | ⟨hst, hc, hl, ⟨⟨d, hdt, hdue⟩, -⟩ | ⟨hdue, -⟩⟩
  · exact .inl hstat
  · refine .inr ⟨hst, hc, by omega, d, hdt, ?_⟩
    change d ≤ env.oracle.clock ((step env n ev).pos - 1) + _ at hdue
    omega
  · cases hdue

end Dropping

end Multimaster
