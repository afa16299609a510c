import Multimaster.Connection.Heeding
import Multimaster.Manager.Backoff
import Multimaster.Manager.Reaping
import Multimaster.Manager.Sweep

/-! The time stamps of a connection, and how old they can be after an event. -/

namespace Multimaster

variable {S : Suite} {env : Env S} {o : Node S} {e : Option Event}

section Turns

variable {s t : Instant S} {q : Ptr} {c d : PeerConnection S}

def Advanced (t : Instant S) (q : Ptr) (c d : PeerConnection S) : Prop :=
  d.state = c.state ∨ d.dead = true ∨ c.state ≠ .established ∧ (d.state = .established → .link q ∈ t.due)

lemma PlanStep.advanced (h : PlanStep env o e s t) (hc : s.node.heap.get? q = some c)
    (hd : t.node.heap.get? q = some d) :
    Advanced t q c d := by
  have keep (hh : t.node.heap = s.node.heap) : Advanced t q c d := by
    rw [hh, hc] at hd
    cases hd
    exact .inl rfl
  have set {n : Node S} {p : Ptr} {x : PeerConnection S} (hn : n.heap = s.node.heap)
      (hd : (n.setConn p x).heap.get? q = some d) (hx : q = p → Advanced t q (s.node.conn p) x) : Advanced t q c d := by
    rw [Node.get?_setConn, hn] at hd
    split_ifs at hd with hp
    · obtain ⟨rfl, -⟩ := hp
      cases hd
      have := hx rfl
      rwa [Node.conn_of_get? hc] at this
    · rw [hc] at hd
      cases hd
      exact .inl rfl
  have alloc {p : Ptr} {x : PeerConnection S} (hp : s.node.heap.get? p = none)
      (hd : (s.node.heap.insert p x).get? q = some d) : Advanced t q c d := by
    rw [Dict.get?_insert] at hd
    split_ifs at hd with hpq
    · rw [hpq, hp] at hc
      cases hc
    · rw [hc] at hd
      cases hd
      exact .inl rfl
  have state {x y : PeerConnection S} (h : x.log = y.log) : x.state = y.state := congrArg (fun l => l.2.1) h
  cases h with
  | aside h => exact keep (h.field Node.heap fun _ => rfl)
  | tend p x h => exact set rfl hd fun _ => .inl (state h)
  | append p rec item hf => exact set (n := s.node.bump) rfl hd fun _ => .inl rfl
  | @speak u p rec item hf => exact set (n := u.node.bump) rfl hd fun _ => .inl rfl
  | outbound addr => exact alloc (Node.freshPtr_free env _) hd
  | dial ev id he hc hm => exact alloc (Node.freshPtr_free env _) hd
  | die p hp => exact set rfl hd fun _ => .inr (.inl rfl)
  | release id r p hr hc => exact keep (letGo_field Node.heap (fun _ _ _ => rfl) id r _)
  | arm id => exact keep (reconnect_field Node.heap (fun _ _ _ _ => rfl) _ id)
  | bury p => exact keep (bury_field Node.heap (fun _ _ _ _ _ => rfl) _ p)
  | stamp ev p f src he hh => exact set rfl hd fun _ => .inl rfl
  | connect p hs =>
    exact set rfl hd fun _ => .inr (.inr ⟨by rw [hs]; exact ConnState.noConfusion, ConnState.noConfusion⟩)
  | confirm p x hs hsec h =>
    refine set rfl hd fun _ => .inr (.inr ⟨by rw [hs]; exact ConnState.noConfusion, fun hx => ?_⟩)
    rw [state h] at hx
    cases hx
  | establish p hp hs =>
    refine set rfl hd fun hqp => .inr (.inr ⟨?_, fun _ => hqp ▸ List.mem_cons_self⟩)
    rcases hs with ⟨hs, -⟩ | ⟨hs, -⟩ <;> rw [hs] <;> exact ConnState.noConfusion
  | learn p pid h hp hg => exact keep (learned_spec env p h _).1.heap
  | meet id port ip he => exact keep (recorded_heap id _ _)
  | lose i ids he hn h => exact keep (loseRecords_heap ids _)
  | construct addr he => exact alloc (Node.freshPtr_free env _) hd
  | reap i x he ht =>
    cases hc.symm.trans (get?_reapDead hd)
    exact .inl rfl
  | clear m he =>
    have hnone : (∅ : Dict Ptr (PeerConnection S)).get? q = some d := hd
    rw [Dict.get?_empty] at hnone
    cases hnone
  | settle | leave | install | close | announce | fire | arrange | adopt | identify | begin | stop =>
    exact keep rfl

lemma PlanStep.awaits (h : PlanStep env o e s t) (hl : .link q ∈ s.due) : .link q ∈ t.due ∨ Grave s.node q ∨
    ∃ pid, e = some (.plaintextTurn q) ∧ nextPeer env o q = some pid := by
  have adds {x : Duty} {l : List Duty} (h : .link q ∈ l) : .link q ∈ x :: l := List.mem_cons_of_mem x h
  have pays {x : Duty} {l : List Duty} (hx : x ≠ .link q) (h : .link q ∈ x :: l) : .link q ∈ l :=
    (List.mem_cons.mp h).resolve_left hx.symm
  cases h with
  | release | connect | confirm | establish => exact .inl (adds hl)
  | speak | arm | settle | close | announce | adopt => exact .inl (pays (by exact Duty.noConfusion) hl)
  | leave p hp =>
    rcases List.mem_cons.mp hl with hq | hl
    · cases hq
      exact .inr (.inl hp)
    · exact .inl hl
  | learn p pid h hp hg => exact .inl hl
  | install p pid hr hg hs =>
    rcases List.mem_cons.mp hl with hq | hl
    · cases hq
      exact .inr (.inr ⟨pid, hg.event, hg.next⟩)
    · exact .inl (List.mem_append_right _ hl)
  | dial | stamp | meet | fire | construct | reap | begin | stop | clear => cases hl
  | _ => exact .inl hl

end Turns

section Stamps

variable {s t : Instant S} {q : Ptr} {c d : PeerConnection S}

structure Descends (env : Env S) (o : Node S) (c d : PeerConnection S) : Prop where
  alive : d.dead = false → c.dead = false
  settled : d.dead = false → c.state = .established → d.state = .established
  created : d.createdAt = c.createdAt
  recv : d.lastRecv = c.lastRecv ∨ d.lastRecv = env.oracle.clock o.pos
  send : d.lastSend = c.lastSend ∨ env.oracle.clock o.pos ≤ d.lastSend

structure Recent (env : Env S) (o : Node S) (d : PeerConnection S) : Prop where
  created : env.oracle.clock o.pos ≤ d.createdAt
  recv : env.oracle.clock o.pos ≤ d.lastRecv
  send : env.oracle.clock o.pos ≤ d.lastSend

lemma Descends.refl (c : PeerConnection S) : Descends env o c c := ⟨id, fun _ => id, rfl, .inl rfl, .inl rfl⟩

lemma Descends.trans {b : PeerConnection S} (h : Descends env o b c) (g : Descends env o c d) : Descends env o b d where
  alive hd := h.alive (g.alive hd)
  settled hd hb := g.settled hd (h.settled (g.alive hd) hb)
  created := g.created.trans h.created
  recv := by
    rcases g.recv with hd | hd
    · rw [hd]
      exact h.recv
    · exact .inr hd
  send := by
    rcases g.send with hd | hd
    · rw [hd]
      exact h.send
    · exact .inr hd

lemma Recent.descends (h : Recent env o c) (g : Descends env o c d) : Recent env o d where
  created := h.created.trans_eq g.created.symm
  recv := by
    rcases g.recv with hd | hd
    · rw [hd]
      exact h.recv
    · exact hd.ge
  send := by
    rcases g.send with hd | hd
    · rw [hd]
      exact h.send
    · exact hd

lemma PlanStep.descends (hm : Monotone env.oracle.clock) (h : PlanStep env o e s t) (hs : o.pos ≤ s.node.pos)
    (hd : t.node.heap.get? q = some d) :
    Recent env o d ∨ ∃ c, s.node.heap.get? q = some c ∧ Descends env o c d := by
  have hnow := hm hs
  rcases h.object hd with ⟨-, hnew⟩ | ⟨c, hc, hshift⟩
  · obtain ⟨h₁, h₂, h₃⟩ := hnew.created
    exact .inl ⟨by rwa [h₁], by rwa [h₂], by rwa [h₃]⟩
  · refine .inr ⟨c, hc, ?_⟩
    have hsettled (hal : d.dead = false) (hest : c.state = .established) : d.state = .established := by
      rcases h.advanced hc hd with he | hdead | ⟨hne, -⟩
      · exact he.trans hest
      · rw [hdead] at hal
        cases hal
      · exact absurd hest hne
    cases hshift with
    | same h =>
      simp only [PeerConnection.log, Prod.mk.injEq] at h
      exact ⟨fun hd => h.1 ▸ hd, hsettled, h.2.2.2.1, .inl h.2.2.2.2.1, .inl h.2.2.2.2.2.1⟩
    | sent item hf h =>
      simp only [PeerConnection.log, Prod.mk.injEq] at h
      exact ⟨fun hd => h.1 ▸ hd, hsettled, h.2.2.2.1, .inl h.2.2.2.2.1, .inr (by rwa [h.2.2.2.2.2.1])⟩
    | heard ev f src he hh h =>
      simp only [PeerConnection.log, Prod.mk.injEq] at h
      exact ⟨fun hd => h.1 ▸ hd, hsettled, h.2.2.2.1, .inr h.2.2.2.2.1, .inl h.2.2.2.2.2.1⟩
    | turn st hst h =>
      simp only [PeerConnection.log, Prod.mk.injEq] at h
      exact ⟨fun hd => h.1 ▸ hd, hsettled, h.2.2.2.1, .inl h.2.2.2.2.1, .inl h.2.2.2.2.2.1⟩
    | killed hal h =>
      simp only [PeerConnection.log, Prod.mk.injEq] at h
      exact ⟨fun _ => hal, hsettled, h.2.2.2.1, .inl h.2.2.2.2.1, .inl h.2.2.2.2.2.1⟩

lemma PlanSteps.descends (hm : Monotone env.oracle.clock) (h : PlanSteps env o e s t) (hs : o.pos ≤ s.node.pos)
    (hd : t.node.heap.get? q = some d) :
    Recent env o d ∨ ∃ c, s.node.heap.get? q = some c ∧ Descends env o c d := by
  induction h generalizing d with
  | refl => exact .inr ⟨d, hd, .refl d⟩
  | tail hsu hut ih =>
    rcases hut.descends hm (hs.trans (PlanSteps.pos_le hsu)) hd with hnew | ⟨c, hc, hcd⟩
    · exact .inl hnew
    · rcases ih hc with hnew | ⟨b, hb, hbc⟩
      · exact .inl (hnew.descends hcd)
      · exact .inr ⟨b, hb, hbc.trans hcd⟩

lemma PlanSteps.completed (h : PlanSteps env o e (.idle o) t) (hd : t.node.heap.get? q = some d) (hal : d.dead = false)
    (hest : d.state = .established) : (∃ c, o.heap.get? q = some c ∧ c.state = .established) ∨ .link q ∈ t.due ∨
      ∃ pid, e = some (.plaintextTurn q) ∧ nextPeer env o q = some pid := by
  induction h generalizing d with
  | refl => exact .inl ⟨d, hd, hest⟩
  | @tail u v _ h ih =>
    rcases h.object hd with ⟨-, hnew⟩ | ⟨c, hc, hshift⟩
    · rcases hnew.state with hs | hs <;> rw [hs] at hest <;> cases hest
    · have hcal : c.dead = false := by
        cases hshift with
        | killed hc h => exact hc
        | _ =>
          next h =>
          simp only [PeerConnection.log, Prod.mk.injEq] at h
          rw [← h.1]
          exact hal
      rcases h.advanced hc hd with hs | hdead | ⟨-, hl⟩
      · rcases ih hc hcal (hs ▸ hest) with ho | hl | hg
        · exact .inl ho
        · rcases h.awaits hl with hl | ⟨x, hx, hdead⟩ | hg
          · exact .inr (.inl hl)
          · cases hc.symm.trans hx
            rw [hcal] at hdead
            cases hdead
          · exact .inr (.inr hg)
        · exact .inr (.inr hg)
      · rw [hdead] at hal
        cases hal
      · exact .inr (.inl (hl hest))

end Stamps

section Steps

variable {k : ℕ} {p : Ptr} {pid : PeerId}

lemma dispatch_stamped {f : Frame S} (hp : (o.conn p).dead = false) (hf : o.records.keys.length + 1 < k)
    (hc : Completes env.self (o.conn p) f pid) (he : e = some (.plaintextTurn p))
    (hn : nextPeer env o p = some pid) (consumed : ℕ) (src : Source) :
    PlanSteps env o e (.idle (o.bump.setConn p (stamped env o p f src)))
      (.idle (dispatch (managerListener env k) p f consumed src o).2) := by
  have hsome : (o.bump.heap.get? p).isSome := by rw [Node.bump, Node.get?_of_alive hp, Option.isSome_some]
  let n := o.bump.setConn p (stamped env o p f src)
  have hcon : n.conn p = stamped env o p f src := Node.conn_setConn_self _ hsome
  have hpn : (n.conn p).dead = false := by rw [hcon]; exact hp
  have hg (i : PeerId) (hi : Completes env.self (n.conn p) f i) (hne : i ≠ env.self.nodeId) :
      Greets env o e (.idle n) p i := by
    have hid : i = pid := by
      rw [hcon] at hi
      cases hc with
      | hello ack x ha hpl => cases hi; rfl
      | confirm tag sig hs => cases hi; rfl
    exact ⟨he, hid ▸ hn, hne, rfl, rfl, Nat.le_succ _, fun _ h => h⟩
  cases hc with
  | hello ack x ha hpl => exact handleHello_planSteps hpn hf hg consumed src
  | confirm tag sig hs => exact handleAuthConfirm_planSteps hpn hf hg consumed src

lemma nextPeer_completes {n : Node S} (h : nextPeer env n p = some pid) : ∃ f consumed,
    tryDecodeFrame (n.conn p).inBuf env.cfg.maxMessageBytes = .ok f consumed ∧ Completes env.self (n.conn p) f pid := by
  unfold nextPeer at h
  split at h
  · next ack x consumed hdec =>
    split_ifs at h with ha
    cases h
    exact ⟨_, consumed, hdec, .hello ack x ha.1 ha.2⟩
  · next tag sig consumed hdec =>
    split_ifs at h with hs
    cases h
    exact ⟨_, consumed, hdec, .confirm tag sig hs⟩
  · cases h

variable {n : Node S} {ev : Event} {q : Ptr} {d : PeerConnection S} (hm : Monotone env.oracle.clock)

include hm

lemma step_established (hd : (step env n ev).heap.get? q = some d) (hal : d.dead = false)
    (hest : d.state = .established) :
    (∃ c, n.heap.get? q = some c ∧ c.state = .established) ∨ env.oracle.clock n.pos ≤ d.lastRecv := by
  rcases (step_planSteps env n ev).completed hd hal hest with ho | hl | ⟨pid, he, hn⟩
  · exact .inl ho
  · cases hl
  · cases he
    unfold step at hd
    split_ifs at hd with hdead
    · exact .inl ⟨d, hd, hest⟩
    · have hp : (n.conn q).dead = false := eq_false_of_ne_true fun h => hdead h
      simp only [perform] at hd
      split_ifs at hd
      · exact .inl ⟨d, hd, hest⟩
      · obtain ⟨f, consumed, hdec, hc⟩ := nextPeer_completes hn
        have hworld : (plaintextTurn (managerListener env (depth n)) q n).world =
            (dispatch (managerListener env (depth n)) q f consumed .inBuf n).2 := plaintextTurn_world hdec
        rw [hworld] at hd
        have hfol := (dispatch_stamped hp (Nat.lt_succ_self _) hc rfl hn consumed .inBuf).descends hm (Nat.le_succ _) hd
        rcases hfol with hnew | ⟨c, hcq, hcd⟩
        · exact .inr hnew.recv
        · have hsome : (n.bump.heap.get? q).isSome := by rw [Node.bump, Node.get?_of_alive hp, Option.isSome_some]
          cases (Node.get?_setConn_self (stamped env n q f .inBuf) hsome).symm.trans hcq
          rcases hcd.recv with h | h <;> exact .inr h.ge

end Steps

structure Prompt (env : Env S) (T : ℤ) (c : PeerConnection S) : Prop where
  handshake : c.dead = false → c.state ≠ .established → T - c.createdAt ≤ env.cfg.handshakeTimeout
  heard : c.dead = false → c.state = .established → T - c.lastRecv ≤ env.cfg.heartbeatTimeout

section Limits

variable {T : ℤ} {n : Node S} {ev : Event} {q : Ptr} {c d : PeerConnection S}
  (hm : Monotone env.oracle.clock) (hh : 0 ≤ env.cfg.handshakeTimeout) (hr : 0 ≤ env.cfg.heartbeatTimeout)

include hh hr in
lemma Recent.prompt (h : Recent env n d) (hT : T ≤ env.oracle.clock n.pos) : Prompt env T d where
  handshake _ _ := by
    have := h.created
    omega
  heard _ _ := by
    have := h.recv
    omega

include hm hh hr in
lemma step_prompt (hT : T ≤ env.oracle.clock n.pos) (h : ∀ q c, n.heap.get? q = some c → Prompt env T c)
    (hd : (step env n ev).heap.get? q = some d) : Prompt env T d := by
  rcases (step_planSteps env n ev).descends hm le_rfl hd with hnew | ⟨c, hc, hcd⟩
  · exact hnew.prompt hh hr hT
  · have hp := h q c hc
    constructor
    · intro hal hne
      rw [hcd.created]
      exact hp.handshake (hcd.alive hal) fun hest => hne (hcd.settled hal hest)
    · intro hal hest
      rcases step_established hm hd hal hest with ⟨b, hb, hbest⟩ | hlate
      · cases hc.symm.trans hb
        rcases hcd.recv with hrecv | hrecv
        · rw [hrecv]
          exact hp.heard (hcd.alive hal) hbest
        · rw [hrecv]
          omega
      · omega

end Limits

end Multimaster
