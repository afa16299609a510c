import Multimaster.Manager.Objects

/-! What a plan step does to the record of a peer and to the timers. -/

namespace Multimaster

variable {S : Suite} {env : Env S} {o : Node S} {e : Option Event}

inductive Rewrite (env : Env S) (o : Node S) (e : Option Event) (s t : Instant S) (id : PeerId) :
    Option PeerRecord → Option PeerRecord → Prop where
  | same (r : Option PeerRecord) : Rewrite env o e s t id r r
  | released (r : PeerRecord) (p : Ptr) (hc : r.conn = some p) (hd : t.due = .rearm id r.isStatic :: s.due) :
      Rewrite env o e s t id (some r) (some { r with conn := none, state := .disconnected })
  | armed (r : PeerRecord) (k : ℕ) (hd : s.due = .rearm id false :: t.due) (hs : r.state ≠ .connected)
      (ht : t.node.timers = s.node.timers ++ [(env.oracle.clock (s.node.pos + 1) +
        backoff env.cfg r.reconnectAttempts k, .reconnect r.id)]) (hp : s.node.pos + 1 < t.node.pos) :
      Rewrite env o e s t id (some r) (some { r with reconnectAttempts := r.reconnectAttempts + 1 })
  | dialed (r : Option PeerRecord) (ev : Event) (p : Ptr) (he : e = some ev) (hs : ev.calling env o = some (id, s.node))
      (hd : ev.dialing env o = some (id, p)) (hdue : s.due = []) :
      Rewrite env o e s t id r (some { r.getD { id } with state := .connecting, conn := some p })
  | learned (r : Option PeerRecord) (p : Ptr) (a : Addr) (b : Bool) (i : ℕ) (hi : s.node.pos ≤ i)
      (hj : i ≤ t.node.pos) (he : e = some (.plaintextTurn p)) (hn : nextPeer env o p = some id) :
      Rewrite env o e s t id r (some { r.getD { id } with
        id, isStatic := (r.getD { id }).isStatic || b, dialAddr := a, haveAddr := true
        lastSeen := env.oracle.clock i, announced := true })
  | installed (r : PeerRecord) (p : Ptr) (he : e = some (.plaintextTurn p)) (hn : nextPeer env o p = some id)
      (hi : id ≠ env.self.nodeId) (ht : s.node.timers = o.timers) (hs : s.due = [.link p])
      (hd : t.due = linkDuties p id s.node) (hl : ∃ i, o.pos ≤ i ∧ r.lastSeen = env.oracle.clock i) :
      Rewrite env o e s t id (some r) (some { r with conn := some p, state := .connected, reconnectAttempts := 0 })
  | met (r : Option PeerRecord) (port : UInt16) (ip : UInt32) (he : e = some (.discovered id port ip))
      (ho : s.node = o) :
      Rewrite env o e s t id r (some { r.getD { id } with
        id, lastSeen := env.oracle.clock o.pos, dialAddr := ⟨ip, port⟩, haveAddr := true, announced := true
        state := if (r.getD { id }).state = .lost then .disconnected else (r.getD { id }).state })
  | lost (r : PeerRecord) (i : ℕ) (he : e = some (.timer i)) (hs : r.isStatic = false) (hc : r.state ≠ .connected)
      (hl : env.oracle.clock o.pos - r.lastSeen > env.cfg.peerLostTimeout) : Rewrite env o e s t id (some r) none
  | dropped (r : Option PeerRecord) (p : Ptr) (pid : PeerId) (he : e = some (.plaintextTurn p))
      (hn : nextPeer env o p = some pid) (ho : Outdated o p pid id) : Rewrite env o e s t id r none
  | cleared (r : Option PeerRecord) (he : e = some .shutdown) : Rewrite env o e s t id r none

section Learning

variable (env) (p : Ptr) (h : Hello S) (n : Node S)

lemma learned_other {id : PeerId} (hid : id ≠ (n.conn p).peerId) :
    (learned env p h n).records.get? id = n.records.get? id ∨
      (learned env p h n).records.get? id = none ∧ Outdated n p (n.conn p).peerId id := by
  obtain ⟨hl, -⟩ := learned_spec env p h n
  cases hr : n.records.get? id with
  | none =>
    cases hr' : (learned env p h n).records.get? id with
    | none => exact .inl rfl
    | some r =>
      have := hl.others id r hid hr'
      rw [hr] at this
      cases this
  | some r =>
    rcases hl.dropped id r hid hr with hkept | hout
    · exact .inl hkept
    · cases hr' : (learned env p h n).records.get? id with
      | none => exact .inr ⟨rfl, hout⟩
      | some r' =>
        have := hl.others id r' hid hr'
        rw [hr] at this
        exact .inl this.symm

lemma learned_timers : (learned env p h n).timers = n.timers := by
  obtain ⟨rs, ts, d, a, j, hb, -⟩ := bindStatic_spec env p (n.conn p).peerId n
  obtain ⟨a', j', hl, -⟩ := learnRecord_spec env p (n.conn p).peerId h (n.staticDialConn.get? p).isSome
    (bindStatic env p (n.conn p).peerId n)
  rw [learned, hl, hb]

end Learning

lemma dialing_of_calling {ev : Event} {n : Node S} {id : PeerId} (hc : ev.calling env o = some (id, n))
    (hm : MayDial env id n) : ev.dialing env o = some (id, n.freshPtr env) := by
  rw [Event.dialing, hc, Option.bind_some]
  exact if_pos hm

lemma get?_loseRecords (ids : List PeerId) (n : Node S) (id : PeerId) :
    (ids.foldl loseRecord n).records.get? id = if id ∈ ids then none else n.records.get? id := by
  induction ids generalizing n with
  | nil => simp
  | cons a ids ih =>
    rw [List.foldl_cons, ih]
    by_cases h : id ∈ ids
    · simp [h]
    · rw [if_neg h]
      change (n.records.erase a).get? id = _
      rw [Dict.get?_erase]
      by_cases ha : id = a <;> simp [ha, h]

lemma scheduleReconnect_armed {n : Node S} {id : PeerId} {r : PeerRecord} (hr : n.records.get? id = some r)
    (hrun : n.running = true) (hs : ¬(r.state = .connected ∨ r.state = .lost)) : scheduleReconnect env id n =
      (n.bump.setRecord id { r with reconnectAttempts := r.reconnectAttempts + 1 }).addTimer env
        (backoff env.cfg r.reconnectAttempts (env.oracle.random n.pos)) (.reconnect r.id) := by
  unfold scheduleReconnect
  rw [hr]
  dsimp only
  rw [hrun, if_neg (by simp), if_neg hs]

theorem PlanStep.rewrite {s t : Instant S} (h : PlanStep env o e s t) (id : PeerId) :
    Rewrite env o e s t id (s.node.records.get? id) (t.node.records.get? id) := by
  have keep (hr : t.node.records = s.node.records) :
      Rewrite env o e s t id (s.node.records.get? id) (t.node.records.get? id) := by
    rw [hr]
    exact .same _
  have insert {a : PeerId} {r : PeerRecord} (hr : t.node.records = s.node.records.insert a r)
      (hx : a = id → Rewrite env o e s t id (s.node.records.get? id) (some r)) :
      Rewrite env o e s t id (s.node.records.get? id) (t.node.records.get? id) := by
    rw [hr, Dict.get?_insert]
    split_ifs with ha
    · exact hx ha.symm
    · exact .same _
  cases h with
  | aside h => exact keep (h.field Node.records fun _ => rfl)
  | @dial n ev a he hc hm =>
    refine insert (r := { n.record a with state := .connecting, conn := some (n.freshPtr env) }) rfl ?_
    rintro rfl
    exact .dialed _ ev _ he hc (dialing_of_calling hc hm) rfl
  | @release _ a r p hr hc =>
    refine insert (letGo_records a r _) ?_
    rintro rfl
    rw [hr]
    exact .released r p hc rfl
  | @arm u a =>
    cases hr : u.node.records.get? a with
    | none => exact keep (by simp only [Instant.on, scheduleReconnect, hr]; rfl)
    | some r =>
      by_cases hrun : u.node.running = true
      · by_cases hst : r.state = .connected ∨ r.state = .lost
        · exact keep (by simp only [Instant.on, scheduleReconnect, hr, hst, if_true, ite_self]; rfl)
        · have h : scheduleReconnect env a u.node = _ := scheduleReconnect_armed hr hrun hst
          refine insert (congrArg Node.records h) ?_
          rintro rfl
          rw [show (u.owing (.rearm a false)).node.records.get? a = some r from hr]
          exact .armed r (env.oracle.random u.node.pos) rfl (fun h => hst (.inl h)) (congrArg Node.timers h)
            (congrArg Node.pos h).ge
      · exact keep (by simp only [Instant.on, scheduleReconnect, hr, hrun, if_true, Bool.not_false]; rfl)
  | bury p => exact keep (bury_field Node.records (fun _ _ _ _ _ => rfl) _ p)
  | @learn u p pid x hp hg =>
    subst hp
    by_cases hid : id = (u.node.conn p).peerId
    · subst hid
      obtain ⟨i, a, b, hi, hj, hrec⟩ := learned_records env p x u.node
      rw [show ((u.on (learned env p x u.node)).owing (.link p)).node.records.get? _ = _ from hrec]
      exact .learned _ p a b i hi hj hg.event hg.next
    · rcases learned_other env p x u.node hid with h | ⟨h, ho⟩
      · rw [show ((u.on (learned env p x u.node)).owing (.link p)).node.records.get? id = _ from h]
        exact .same _
      · rw [show ((u.on (learned env p x u.node)).owing (.link p)).node.records.get? id = _ from h]
        exact .dropped _ p _ hg.event hg.next (hg.outdated id ho)
  | @install u p pid hr hg hl =>
    refine insert (r := { u.node.record pid with conn := some p, state := .connected, reconnectAttempts := 0 }) rfl ?_
    rintro rfl
    have hdue : u.due = [] := hg.due
    obtain ⟨r, hr⟩ := Option.isSome_iff_exists.mp hr
    have hrec : u.node.record pid = r := by rw [Node.record, hr, Option.getD_some]
    rw [hrec] at hl ⊢
    rw [show (u.owing (.link p)).node.records.get? pid = some r from hr]
    refine .installed _ p hg.event hg.next hg.other hg.timers ?_ ?_ hl
    · rw [Instant.owing, hdue]
    · rw [hdue, List.append_nil]
      rfl
  | meet a port ip he =>
    have hr : (met env a port ip o).records = o.records.insert a (sighted env a port ip o) := by
      unfold met recorded
      split_ifs <;> rfl
    refine insert hr ?_
    rintro rfl
    exact .met _ port ip he rfl
  | lose i ids he hn h =>
    change Rewrite env o e _ _ id _ ((ids.foldl loseRecord _).records.get? id)
    rw [get?_loseRecords]
    split_ifs with hid
    · obtain ⟨r, hr, hstatic, hc, hl⟩ := h id hid
      rw [hr]
      exact .lost r i he hstatic hc hl
    · exact .same _
  | clear m he =>
    change Rewrite env o e _ _ id _ ((∅ : Dict PeerId PeerRecord).get? id)
    rw [Dict.get?_empty]
    exact .cleared _ he
  | _ => exact keep rfl

inductive Rearming (env : Env S) (o : Node S) (e : Option Event) (s t : Instant S) :
    List (ℤ × TimerKind) → List (ℤ × TimerKind) → Prop where
  | same (l : List (ℤ × TimerKind)) : Rearming env o e s t l l
  | other (l : List (ℤ × TimerKind)) (due : ℤ) (kind : TimerKind) (hk : ∀ id, kind ≠ .reconnect id) :
      Rearming env o e s t l (l ++ [(due, kind)])
  | backoff (l : List (ℤ × TimerKind)) (id : PeerId) (r : PeerRecord) (hd : s.due = .rearm id false :: t.due)
      (hr : s.node.records.get? id = some r) (hs : r.state ≠ .connected) :
      Rearming env o e s t l (l ++ [(env.oracle.clock (s.node.pos + 1) +
        Multimaster.backoff env.cfg r.reconnectAttempts (env.oracle.random s.node.pos), .reconnect r.id)])
  | fired (i : ℕ) (x : ℤ × TimerKind) (he : e = some (.timer i)) (hx : o.timers[i]? = some x) (ho : s.node = o) :
      Rearming env o e s t o.timers (o.timers.eraseIdx i)

theorem PlanStep.timers {s t : Instant S} (h : PlanStep env o e s t) :
    Rearming env o e s t s.node.timers t.node.timers := by
  have keep (ht : t.node.timers = s.node.timers) : Rearming env o e s t s.node.timers t.node.timers := by
    rw [ht]
    exact .same _
  cases h with
  | aside h => exact keep (h.field Node.timers fun _ => rfl)
  | release id r p hr hc => exact keep (letGo_field Node.timers (fun _ _ _ => rfl) id r _)
  | @arm u id =>
    change Rearming env o e _ _ u.node.timers (scheduleReconnect env id u.node).timers
    unfold scheduleReconnect
    cases hr : u.node.records.get? id with
    | none => exact .same _
    | some r =>
      dsimp only
      split_ifs with hrun hst
      · exact .same _
      · exact .same _
      · exact .backoff _ id r rfl hr fun h => hst (.inl h)
  | bury p =>
    change Rearming env o e _ _ _ (buryLater env p s.node).timers
    unfold buryLater
    rcases scheduleReap_cases env { s.node with reap := s.node.reap ++ [p] } with h | h
    · rw [h]
      exact .same _
    · rw [h]
      exact .other _ _ .reap fun _ h => by cases h
  | learn p pid x hp hg => exact keep (learned_timers env p x _)
  | meet id port ip he =>
    refine keep ?_
    change (recorded env id _ o).timers = o.timers
    unfold recorded
    split_ifs <;> rfl
  | lose i ids he hn h =>
    have htimers (l : List PeerId) (n : Node S) : (l.foldl loseRecord n).timers = n.timers := by
      induction l generalizing n with
      | nil => rfl
      | cons id l ih => exact ih _
    exact keep (htimers ids s.node)
  | fire i x he hx => exact .fired i x he hx rfl
  | arrange delay kind hk => exact .other _ _ kind hk
  | _ => exact keep rfl

def Node.links (n : Node S) : List Notice := n.notices.filter Notice.ofLink

lemma count_links {x : Notice} (hx : x.ofLink = true) (n : Node S) : n.links.count x = n.notices.count x :=
  List.count_filter hx

inductive Telling (env : Env S) (o : Node S) (e : Option Event) (s t : Instant S) : List Notice → Prop where
  | nothing : Telling env o e s t []
  | released (id : PeerId) (r : PeerRecord) (p : Ptr) (hr : s.node.records.get? id = some r) (hs : r.state = .connected)
      (hc : r.conn = some p) (ht : t.node.records.get? id = some { r with conn := none, state := .disconnected })
      (hd : t.due = .rearm id r.isStatic :: s.due) : Telling env o e s t [.peerDisconnected r.id]
  | connected (id : PeerId) (hd : s.due = .announce id :: t.due) : Telling env o e s t [.peerConnected id]
  | lost (i : ℕ) (ids : List PeerId) (he : e = some (.timer i)) (ht : ∀ id ∈ ids, t.node.records.get? id = none)
      (h : ∀ id ∈ ids, ∃ r, s.node.records.get? id = some r ∧ r.isStatic = false ∧ r.state ≠ .connected ∧
        env.oracle.clock o.pos - r.lastSeen > env.cfg.peerLostTimeout) : Telling env o e s t (ids.map .peerLost)

lemma loseRecords_eq (ids : List PeerId) (n : Node S) : ids.foldl loseRecord n =
    { n with records := ids.foldl Dict.erase n.records, notices := n.notices ++ ids.map .peerLost } := by
  induction ids generalizing n with
  | nil => simp only [List.foldl_nil, List.map_nil, List.append_nil]
  | cons id ids ih =>
    rw [List.foldl_cons, ih]
    simp only [loseRecord, Node.notify, List.foldl_cons, List.map_cons, List.append_assoc, List.singleton_append]

lemma links_append {n m : Node S} {l : List Notice} (h : m.notices = n.notices ++ l) (hl : ∀ x ∈ l, x.ofLink = true) :
    m.links = n.links ++ l := by
  rw [Node.links, h, List.filter_append, List.filter_eq_self.mpr hl]
  rfl

lemma links_notify (n : Node S) {l : List Notice} (hl : ∀ x ∈ l, x.ofLink = false) : (n.notify l).links = n.links := by
  have hnil : l.filter Notice.ofLink = [] := List.filter_eq_nil_iff.mpr fun x hx => ne_true_of_eq_false (hl x hx)
  rw [Node.links, Node.notify, List.filter_append, hnil, List.append_nil]
  rfl

lemma links_known (env : Env S) (n : Node S) : (n.emitKnownSnapshot env).links = n.links :=
  links_notify n (by simp [Notice.ofLink])

lemma learned_links (p : Ptr) (h : Hello S) (n : Node S) : (learned env p h n).links = n.links := by
  have hbind : (bindStatic env p (n.conn p).peerId n).links = n.links := by
    obtain ⟨ts, d, hb | ⟨old, -, hb⟩⟩ := bindStatic_cases env p (n.conn p).peerId n
    · rw [hb]
      rfl
    · rw [hb]
      exact links_known env { n with records := n.records.erase old }
  rw [← hbind]
  unfold learned learnRecord
  extract_lets pid m
  split_ifs
  · rfl
  · exact (links_known env _).trans (links_notify m (by simp [Notice.ofLink]))

lemma met_links (id : PeerId) (port : UInt16) (ip : UInt32) (n : Node S) : (met env id port ip n).links = n.links := by
  unfold met recorded
  split_ifs
  · rfl
  · exact (links_known env _).trans (links_notify _ (by simp [Notice.ofLink]))

theorem PlanStep.telling {s t : Instant S} (h : PlanStep env o e s t) :
    ∃ l, t.node.links = s.node.links ++ l ∧ Telling env o e s t l := by
  have quiet (hn : t.node.links = s.node.links) : ∃ l, t.node.links = s.node.links ++ l ∧ Telling env o e s t l :=
    ⟨[], by rw [hn, List.append_nil], .nothing⟩
  cases h with
  | aside h => exact quiet (h.field Node.links fun n => by simp [Node.links, Node.plan])
  | @release u id r p hr hc =>
    by_cases hs : r.state = .connected
    · refine ⟨_, ?_, .released id r p hr hs hc ?_ rfl⟩
      · refine links_append ?_ (by simp [Notice.ofLink])
        change (letGo id r s.node).notices = _
        rw [letGo, if_pos hs]
        rfl
      · change (letGo id r s.node).records.get? id = _
        rw [letGo_records, Dict.get?_insert, if_pos rfl]
    · refine quiet ?_
      change (letGo id r s.node).links = _
      rw [letGo, if_neg hs]
      rfl
  | arm id => exact quiet (reconnect_field Node.links (fun _ _ _ _ => rfl) _ id)
  | bury p => exact quiet (bury_field Node.links (fun _ _ _ _ _ => rfl) _ p)
  | learn p pid x hp hg =>
    exact quiet (learned_links p x _)
  | announce id => exact ⟨_, links_append rfl (by simp [Notice.ofLink]), .connected id rfl⟩
  | meet id port ip he => exact quiet (met_links id port ip o)
  | lose i ids he hn h =>
    refine ⟨_, ?_, .lost i ids he ?_ h⟩
    · rw [loseRecords_eq]
      refine (links_known env _).trans (links_append rfl ?_)
      intro x hx
      obtain ⟨id, -, rfl⟩ := List.mem_map.mp hx
      rfl
    · intro id hid
      change (ids.foldl loseRecord _).records.get? id = none
      rw [get?_loseRecords, if_pos hid]
  | _ => exact quiet rfl

def Discharge (env : Env S) (n m : Node S) : Duty → Prop
  | .rearm id false => m = scheduleReconnect env id n
  | .announce id => m = n.notify [.peerConnected id]
  | .link p => (m.conn p).dead = true ∨ ∃ id, m.estab.get? id = some p
  | .close q => (m.conn q).dead = true
  | _ => True

lemma PlanStep.duty {s t : Instant S} (h : PlanStep env o e s t) {d : Duty} (hd : d ∈ s.due) :
    d ∈ t.due ∨ Discharge env s.node t.node d := by
  have push {x : Duty} (hx : t.due = x :: s.due) : d ∈ t.due := hx ▸ List.mem_cons_of_mem x hd
  have pop {x : Duty} (hx : s.due = x :: t.due) (hdone : Discharge env s.node t.node x) :
      d ∈ t.due ∨ Discharge env s.node t.node d := by
    rw [hx] at hd
    rcases List.mem_cons.mp hd with rfl | hd
    · exact .inr hdone
    · exact .inl hd
  cases h with
  | release => exact .inl (push rfl)
  | connect => exact .inl (push rfl)
  | confirm => exact .inl (push rfl)
  | establish => exact .inl (push rfl)
  | speak => exact pop rfl trivial
  | arm => exact pop rfl rfl
  | settle => exact pop rfl trivial
  | leave p hp =>
    obtain ⟨c, hc, hdead⟩ := hp
    refine pop rfl (.inl ?_)
    rw [Node.conn_of_get? hc]
    exact hdead
  | close q hq => exact pop rfl hq
  | announce => exact pop rfl rfl
  | adopt => exact pop rfl trivial
  | install p pid =>
    rcases List.mem_cons.mp hd with rfl | hd
    · exact .inr (.inr ⟨pid, Dict.get?_insert_self ..⟩)
    · exact .inl (List.mem_append_right _ hd)
  | construct => cases hd
  | _ => exact .inl hd

end Multimaster
