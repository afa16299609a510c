import Multimaster.Manager.Backoff

/-! The terms of the redials: what is reported, what is owed, and what holds of the plan in every run. -/

namespace Multimaster

variable {S : Suite} {env : Env S} {o : Node S} {e : Option Event}

def Reports (env : Env S) (es : List Event) (i : ℕ) (x : Notice) : Prop :=
  (reached env es i).notices.count x < (reached env es (i + 1)).notices.count x

def Node.Unbound (n : Node S) (id : PeerId) : Prop := ∀ t ∈ n.staticTargets, t.learnedId ≠ some id

/-- Between the end of the link to a peer and the report that the peer is lost, the peer is dialled or connects. -/
def TriedFirst (env : Env S) (es : List Event) : Prop :=
  ∀ i j id, i ≤ j → (∀ l, i ≤ l → l ≤ j → (reached env es l).Unbound id) →
    Reports env es i (.peerDisconnected id) → Reports env es j (.peerLost id) →
    (∃ l ev p, i < l ∧ l ≤ j ∧ es[l]? = some ev ∧ ev.dialing env (reached env es l) = some (id, p)) ∨
      ∃ l, i < l ∧ l < j ∧ Reports env es l (.peerConnected id)

def Punctual (env : Env S) (n : Node S) : Prop := ∀ x ∈ n.timers, env.oracle.clock n.pos ≤ x.1

def longestDelay (cfg : MeshConfig) : ℤ :=
  let ms := cappedDelay cfg 0
  max ms 0 + max 1 (ms / 5)

def lastHeard (env : Env S) (n : Node S) (id : PeerId) : ℤ :=
  if (n.record id).state = .connected then (n.record id).lastSeen else env.oracle.clock n.pos

def endOf (env : Env S) (n : Node S) (ev : Event) : ℤ := env.oracle.clock (max n.pos ((step env n ev).pos - 1))

/-- A peer whose link drops in the event was seen so shortly before that its first reconnect timer fires in time. -/
def SeenLately (env : Env S) (n : Node S) (ev : Event) : Prop :=
  ∀ id, n.notices.count (.peerDisconnected id) < (step env n ev).notices.count (.peerDisconnected id) →
    endOf env n ev + longestDelay env.cfg ≤ lastHeard env n id + env.cfg.peerLostTimeout

lemma backoff_first_le (cfg : MeshConfig) (k : ℕ) : backoff cfg 0 k ≤ longestDelay cfg := by
  unfold backoff longestDelay
  extract_lets ms
  have hmod : (k : ℤ) % (max 1 (ms / 5) + 1) < max 1 (ms / 5) + 1 := Int.emod_lt_of_pos _ (by omega)
  omega

lemma longestDelay_pos (cfg : MeshConfig) : 0 < longestDelay cfg := by
  unfold longestDelay
  extract_lets ms
  omega

section Soundness

variable {s t : Instant S}

/-- The records of a node: each was seen, has an address, and starts over when it is connected. -/
structure Sound (env : Env S) (s : Instant S) : Prop where
  key : ∀ id r, s.node.records.get? id = some r → r.id = id
  addr : ∀ id r, s.node.records.get? id = some r → r.haveAddr = true
  seen : ∀ id r, s.node.records.get? id = some r → r.lastSeen ≤ env.oracle.clock s.node.pos
  connected : ∀ id r, s.node.records.get? id = some r → r.state = .connected →
    r.reconnectAttempts = 0 ∧ id ≠ env.self.nodeId

lemma mayDial_of_dialing {ev : Event} {n : Node S} {id : PeerId} {p : Ptr} (hc : ev.calling env o = some (id, n))
    (hd : ev.dialing env o = some (id, p)) : MayDial env id n := by
  rw [Event.dialing, hc, Option.bind_some] at hd
  by_contra hm
  rw [if_neg hm] at hd
  cases hd

lemma PlanStep.sound (hm : Monotone env.oracle.clock) (h : PlanStep env o e s t) (hs : Sound env s) : Sound env t := by
  have later : env.oracle.clock s.node.pos ≤ env.oracle.clock t.node.pos := hm h.pos_le
  have each (id : PeerId) (r : PeerRecord) (hr : t.node.records.get? id = some r) :
      r.haveAddr = true ∧ r.lastSeen ≤ env.oracle.clock t.node.pos ∧
        (r.state = .connected → r.reconnectAttempts = 0 ∧ id ≠ env.self.nodeId) := by
    have hrw := h.rewrite id
    rw [hr] at hrw
    generalize hx : s.node.records.get? id = x at hrw
    cases hrw with
    | same => exact ⟨hs.addr id r hx, (hs.seen id r hx).trans later, hs.connected id r hx⟩
    | released r₀ => exact ⟨hs.addr id r₀ hx, (hs.seen id r₀ hx).trans later, fun h => by cases h⟩
    | armed r₀ k hd hst => exact ⟨hs.addr id r₀ hx, (hs.seen id r₀ hx).trans later, fun h => absurd h hst⟩
    | dialed _ ev p he hc hd =>
      have haddr : (x.getD { id }).haveAddr = true := by
        rw [← hx]
        exact (mayDial_of_dialing hc hd).2.2.2.1
      cases x with
      | none => cases haddr
      | some r₀ => exact ⟨haddr, (hs.seen id r₀ hx).trans later, fun h => by cases h⟩
    | learned _ p a b i hi hj =>
      refine ⟨rfl, hm hj, fun hc => ?_⟩
      cases x with
      | none => cases hc
      | some r₀ => exact hs.connected id r₀ hx hc
    | installed r₀ p he hn hi => exact ⟨hs.addr id r₀ hx, (hs.seen id r₀ hx).trans later, fun _ => ⟨rfl, hi⟩⟩
    | met _ port ip he ho =>
      subst ho
      refine ⟨rfl, later, fun hc => ?_⟩
      cases x with
      | none => cases hc
      | some r₀ =>
        refine hs.connected id r₀ hx ?_
        by_contra hne
        change (if r₀.state = .lost then PeerState.disconnected else r₀.state) = .connected at hc
        split_ifs at hc
        exact hne hc
  exact ⟨h.key hs.key, fun id r hr => (each id r hr).1, fun id r hr => (each id r hr).2.1,
    fun id r hr => (each id r hr).2.2⟩

lemma sound_initial : Sound env (.idle (Node.initial env)) := by
  have none (id : PeerId) (r : PeerRecord) (h : (Node.initial env).records.get? id = some r) : False := by
    cases (Dict.get?_empty id).symm.trans h
  exact ⟨fun id r h => (none id r h).elim, fun id r h => (none id r h).elim, fun id r h => (none id r h).elim,
    fun id r h => (none id r h).elim⟩

lemma sound_reached (hm : Monotone env.oracle.clock) (es : List Event) (i : ℕ) :
    Sound env (.idle (reached env es i)) := by
  refine reached_from (I := fun n => Sound env (.idle n)) (Nat.zero_le i) ?_ ?_
  · exact fun l ev _ _ _ hl => PlanSteps.preserves (fun ha hs => ha.sound hm hs) (step_planSteps env _ ev) hl
  · exact PlanSteps.preserves (I := Sound env) (fun ha hs => ha.sound hm hs) (started_planSteps env) sound_initial

lemma PlanStep.running (h : PlanStep env o e s t) (he : e ≠ some .shutdown) (hs : s.node.running = true) :
    t.node.running = true := by
  cases h with
  | aside h => exact (h.field Node.running fun _ => rfl).trans hs
  | release id r p hr hc => exact (letGo_field Node.running (fun _ _ _ => rfl) id r _).trans hs
  | arm id => exact (reconnect_field Node.running (fun _ _ _ _ => rfl) _ id).trans hs
  | bury p => exact (bury_field Node.running (fun _ _ _ _ _ => rfl) _ p).trans hs
  | learn p pid x hp hg => exact (learned_spec env p x _).1.running.trans hs
  | meet id port ip hd =>
    change (recorded env id _ o).running = true
    unfold recorded
    split_ifs <;> exact hs
  | lose i ids hi hn h =>
    rw [loseRecords_eq]
    exact hs
  | begin => rfl
  | stop hd => exact absurd hd he
  | _ => exact hs

lemma running_reached {es : List Event} (h : .shutdown ∉ es) (i : ℕ) : (reached env es i).running = true := by
  refine reached_from (I := fun n => n.running = true) (Nat.zero_le i) ?_ ?_
  · intro l ev _ _ hev hl
    refine PlanSteps.preserves (I := fun s => s.node.running = true) (fun ha hs => ha.running ?_ hs)
      (step_planSteps env _ ev) hl
    intro he
    cases he
    exact h (List.mem_of_getElem? hev)
  · exact PlanSteps.preserves (I := fun s => s.node.running = true)
      (fun ha hs => ha.running (fun he => by cases he) hs) (starting_planSteps env) rfl

end Soundness

section Counting

variable {s t : Instant S}

lemma count_append_of_notMem {x : Notice} {l : List Notice} (h : x ∉ l) (l' : List Notice) :
    (l' ++ l).count x = l'.count x := by
  rw [List.count_append, List.count_eq_zero_of_not_mem h, add_zero]

lemma PlanStep.count_links_le (h : PlanStep env o e s t) (x : Notice) :
    s.node.links.count x ≤ t.node.links.count x := by
  obtain ⟨l, hl, -⟩ := h.telling
  rw [hl, List.count_append]
  exact Nat.le_add_right ..

lemma PlanStep.count_disconnected (h : PlanStep env o e s t) (hk : ∀ id r, s.node.records.get? id = some r → r.id = id)
    (id : PeerId) : t.node.links.count (.peerDisconnected id) = s.node.links.count (.peerDisconnected id) ∨
      ∃ r, s.node.records.get? id = some r ∧ r.state = .connected ∧
        t.node.records.get? id = some { r with conn := none, state := .disconnected } ∧
        t.due = .rearm id r.isStatic :: s.due := by
  obtain ⟨l, hl, htell⟩ := h.telling
  rw [hl]
  cases htell with
  | nothing => exact .inl (by rw [List.append_nil])
  | released a r p hr hs hc ht hd =>
    obtain rfl := hk a r hr
    by_cases ha : r.id = id
    · subst ha
      exact .inr ⟨r, hr, hs, ht, hd⟩
    · exact .inl (count_append_of_notMem (by simpa using Ne.symm ha) _)
  | connected => exact .inl (count_append_of_notMem (by simp) _)
  | lost i ids => exact .inl (count_append_of_notMem (by simp) _)

lemma PlanStep.count_lost (h : PlanStep env o e s t) (id : PeerId) :
    t.node.links.count (.peerLost id) = s.node.links.count (.peerLost id) ∨
      ∃ i r, e = some (.timer i) ∧ s.node.records.get? id = some r ∧ r.isStatic = false ∧
        env.oracle.clock o.pos - r.lastSeen > env.cfg.peerLostTimeout ∧ t.node.records.get? id = none ∧
        t.node.links.count (.peerDisconnected id) = s.node.links.count (.peerDisconnected id) := by
  obtain ⟨l, hl, htell⟩ := h.telling
  rw [hl]
  cases htell with
  | nothing => exact .inl (by rw [List.append_nil])
  | released => exact .inl (count_append_of_notMem (by simp) _)
  | connected => exact .inl (count_append_of_notMem (by simp) _)
  | lost i ids he ht h =>
    by_cases hid : id ∈ ids
    · obtain ⟨r, hr, hstatic, -, hlast⟩ := h id hid
      exact .inr ⟨i, r, he, hr, hstatic, hlast, ht id hid, count_append_of_notMem (by simp) _⟩
    · exact .inl (count_append_of_notMem (by simpa using hid) _)

end Counting

def Owed (env : Env S) (id : PeerId) (now : ℤ) (n : Node S) : Prop :=
  ∃ r, n.records.get? id = some r ∧ (r.isStatic = true ∨ r.state = .disconnected ∧ r.conn = none ∧
    now ≤ r.lastSeen + env.cfg.peerLostTimeout ∧
    ∃ d, (d, .reconnect id) ∈ n.timers ∧ d ≤ r.lastSeen + env.cfg.peerLostTimeout)

end Multimaster
