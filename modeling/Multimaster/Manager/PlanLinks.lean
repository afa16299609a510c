import Multimaster.Manager.PlanCalls

/-! What a completed handshake does to the plan of a node. -/

namespace Multimaster

variable {S : Suite}
variable {env : Env S} {o : Node S} {e : Option Event} {k : ℕ}

def PlanRun (env : Env S) (o : Node S) (e : Option Event) (k : ℕ) (n m : Node S) : Prop :=
  Fits k n → (∀ s : Instant S, PlanSteps env o e (s.on n) (s.on m)) ∧ Fits k m

namespace PlanRun

variable {n m l : Node S}

lemma refl (n : Node S) : PlanRun env o e k n n := fun h => ⟨fun _ => .refl, h⟩

lemma trans (h : PlanRun env o e k n m) (g : PlanRun env o e k m l) : PlanRun env o e k n l := by
  intro hn
  obtain ⟨hm, hf⟩ := h hn
  obtain ⟨hl, hf'⟩ := g hf
  exact ⟨fun s => (hm s).trans (hl s), hf'⟩

lemma of_planCall (h : PlanCall env o e k n m) : PlanRun env o e k n m := by
  intro hn
  obtain ⟨hm, -, hl⟩ := h hn.bound
  exact ⟨hm, hl.trans_lt hn⟩

lemma of_beside (h : Beside n m) : PlanRun env o e k n m := of_planCall (.of_beside h)

lemma of_planStep (h : ∀ s : Instant S, PlanStep env o e (s.on n) (s.on m)) (hr : m.records = n.records) :
    PlanRun env o e k n m := of_planCall (.of_planStep h hr)

lemma tend {p : Ptr} {d : PeerConnection S} (h : d.log = (n.conn p).log) : PlanRun env o e k n (n.setConn p d) :=
  of_planStep (fun s => .tend (s := s.on n) p d h) rfl

lemma foldl {α : Type} {f : Node S → α → Node S} (h : ∀ n a, PlanRun env o e k n (f n a)) (l : List α) (n : Node S) :
    PlanRun env o e k n (l.foldl f n) := by
  induction l generalizing n with
  | nil => exact refl n
  | cons a l ih => exact (h n a).trans (ih _)

end PlanRun

section Closing

variable (env o e k)

lemma closeGracefully_planCall (p : Ptr) (n : Node S) :
    PlanCall env o e k n (closeGracefully (managerSink env k) p n) := by
  cases k with
  | zero => exact fun hb => absurd hb (Nat.not_lt_zero _)
  | succ k =>
    have hbye : Speaks env o e (.goodbye : Frame S) := speaks_of_ne fun _ h => by cases h
    exact (admits_planCall env o e (k + 1)).closeGracefully p hbye (markDead_planCall (admits_planCall env o e k) p) n

lemma fail_planRun (p : Ptr) (cat : ErrorCategory) (err : ℤ) (what : String) (n : Node S) :
    PlanRun env o e k n (fail (managerSink env k) p cat err what n) := by
  cases k with
  | zero => exact fun hb => absurd hb (Nat.not_lt_zero _)
  | succ k => exact .of_planCall (fail_planCall (admits_planCall env o e k) n p cat err what)

variable {env k} in
lemma closeGracefully_dead {n : Node S} (p : Ptr) (hb : bound n < k) :
    ((closeGracefully (managerSink env k) p n).conn p).dead = true := by
  cases hd : (n.conn p).dead with
  | true =>
    have hsame : closeGracefully (managerSink env k) p n = n := if_pos hd
    rw [hsame]
    exact hd
  | false =>
    obtain ⟨c, hc, hdead⟩ := closeGracefully_grave hd hb
    rw [Node.conn_of_get? hc]
    exact hdead

end Closing

section Links

variable {n : Node S} {p : Ptr} {pid : PeerId}

lemma learnName_beside (pid : PeerId) (h : Hello S) (n : Node S) : Beside n (learnName pid h n) := by
  unfold learnName
  split_ifs
  · exact .trans (m := { n with names := n.names.insert pid h.nodeName }) ⟨rfl, le_rfl⟩
      (.notify _ (by simp [Notice.ofLink]))
  · exact .refl n

lemma sendIdentity_planCall (p : Ptr) (n : Node S) : PlanCall env o e k n (sendIdentity (managerSink env k) p n) := by
  unfold sendIdentity
  split_ifs
  · exact .trans (m := (makeSelfIdRecord env n).2) (.of_beside ⟨rfl, le_rfl⟩)
      ((admits_planCall env o e k).enqueue p (speaks_own rfl) _)
  · exact .refl n

variable (env) in
lemma learned_records (p : Ptr) (h : Hello S) (n : Node S) : ∃ i a b, n.pos ≤ i ∧ i ≤ (learned env p h n).pos ∧
    (learned env p h n).records.get? (n.conn p).peerId = some { n.record (n.conn p).peerId with
      id := (n.conn p).peerId, isStatic := (n.record (n.conn p).peerId).isStatic || b, dialAddr := a
      haveAddr := true, lastSeen := env.oracle.clock i, announced := true } := by
  generalize hpid : (n.conn p).peerId = pid
  have hlearned : learned env p h n =
      learnRecord env p pid h (n.staticDialConn.get? p).isSome (bindStatic env p pid n) := by
    rw [← hpid]
    rfl
  obtain ⟨rs, ts, d, a, j, hb, hrs, -, hj, -⟩ := bindStatic_spec env p pid n
  obtain ⟨a', j', hl, -, hj', -⟩ :=
    learnRecord_spec env p pid h (n.staticDialConn.get? p).isSome (bindStatic env p pid n)
  have hget : rs.get? pid = n.records.get? pid := by
    rcases hrs with rfl | ⟨old, ⟨_, _, _, _, _, hne⟩, rfl⟩
    · rfl
    · rw [Dict.get?_erase, if_neg (Ne.symm hne)]
  have hrec : (bindStatic env p pid n).record pid = n.record pid := by
    rw [hb, Node.record, hget]
    rfl
  have hpos : (bindStatic env p pid n).pos = j := by rw [hb]
  refine ⟨j, ⟨((bindStatic env p pid n).conn p).peerAddr.ip, h.tcpListenPort⟩, (n.staticDialConn.get? p).isSome, hj, ?_⟩
  rw [hlearned, hl]
  refine ⟨hpos ▸ hj', ?_⟩
  dsimp only
  rw [Dict.get?_insert, if_pos rfl, refreshed, hrec, hpos]

lemma bindStatic_freed (p : Ptr) (pid : PeerId) (n : Node S) :
    (bindStatic env p pid n).staticDialConn.get? p = none := by
  unfold bindStatic
  cases hi : n.staticDialConn.get? p with
  | none => exact hi
  | some i => exact (Dict.get?_erase _ p p).trans (if_pos rfl)

lemma takeLink_planSteps (h : Hello S) (hr : (n.records.get? pid).isSome) (hf : Fits k n)
    (hg : Greets env o e (.idle n) p pid) (hl : ∃ i, o.pos ≤ i ∧ (n.record pid).lastSeen = env.oracle.clock i) :
    PlanSteps env o e ((Instant.idle n).owing (.link p))
      (.idle (takeLink (managerSink env k) p pid h (existingLink p pid n) n)) := by
  have hinstall : PlanStep env o e ((Instant.idle n).owing (.link p))
      { node := installLink p pid n, due := linkDuties p pid n ++ [] } :=
    .install (s := .idle n) p pid hr hg hl
  have hfit : Fits k (installLink p pid n) := (Dict.length_keys_insert _ hr).trans_lt hf
  unfold takeLink
  extract_lets wasConnected n₁ n₂
  have h₁ : PlanRun env o e k (installLink p pid n) n₁ :=
    .of_planCall (.trans (.of_beside (learnName_beside pid h _)) (sendIdentity_planCall p _))
  obtain ⟨ha₁, hf₁⟩ := h₁ hfit
  let news : List Duty := if wasConnected then [] else [.announce pid]
  -- with the connection that was replaced out of the way, the announcement is left
  have hclosed : PlanSteps env o e ((Instant.idle n).owing (.link p)) { node := n₂, due := news } ∧ Fits k n₂ := by
    unfold n₂
    cases hex : existingLink p pid n with
    | none =>
      have hdue : linkDuties p pid n ++ [] = news := by
        rw [linkDuties, hex, List.append_nil]
        rfl
      rw [hdue] at hinstall
      exact ⟨.head hinstall (ha₁ { node := installLink p pid n, due := news }), hf₁⟩
    | some q =>
      have hdue : linkDuties p pid n ++ [] = .close q :: news := by
        rw [linkDuties, hex, List.append_nil]
        rfl
      rw [hdue] at hinstall
      have hclose : PlanRun env o e k n₁ (closeGracefully (managerSink env k) q (n₁.deref [q])) :=
        .trans (.of_beside (.deref n₁ [q])) (.of_planCall (closeGracefully_planCall env o e k q _))
      obtain ⟨ha₂, hf₂⟩ := hclose hf₁
      have hdead : ((closeGracefully (managerSink env k) q (n₁.deref [q])).conn q).dead = true :=
        closeGracefully_dead q (n := n₁.deref [q]) hf₁.bound
      refine ⟨?_, hf₂⟩
      refine .head hinstall ((ha₁ { node := installLink p pid n, due := .close q :: news }).trans ?_)
      refine .tail (ha₂ { node := n₁, due := .close q :: news }) ?_
      exact .close (s := { node := _, due := news }) q hdead
  obtain ⟨hact, hf₂⟩ := hclosed
  split_ifs with hwas
  · have hnews : news = [] := if_pos hwas
    rw [hnews] at hact
    exact hact
  · have hnews : news = [.announce pid] := if_neg hwas
    rw [hnews] at hact
    have htell : PlanStep env o e { node := n₂, due := [.announce pid] } (.idle (n₂.notify [.peerConnected pid])) :=
      .announce (s := .idle n₂) pid
    have hrest : PlanRun env o e k (n₂.notify [.peerConnected pid]) (announceConnected (managerSink env k) pid n₂) :=
      .trans (.of_beside (.connected env _))
        (.of_planCall (updateLocalMembership_planCall (admits_planCall env o e k) _))
    exact hact.trans (.head htell ((hrest hf₂).1 (.idle n₂)))

lemma onPeerHandshake_planSteps (h : Hello S) (hp : (n.conn p).dead = false)
    (hf : n.records.keys.length + 1 < k)
    (hg : (n.conn p).peerId ≠ env.self.nodeId → Greets env o e (.idle n) p (n.conn p).peerId) :
    PlanSteps env o e ((Instant.idle n).owing (.link p)) (.idle (onPeerHandshake (managerSink env k) p h n)) := by
  have hfit : Fits k n := Nat.lt_of_succ_lt hf
  by_cases hi : (n.conn p).peerId = env.self.nodeId
  · rw [onPeerHandshake_own (K := managerSink env k) hi]
    have hclose := (closeGracefully_planCall env o e k p n hfit.bound).1 ((Instant.idle n).owing (.link p))
    exact hclose.tail (.leave (s := .idle _) p (closeGracefully_grave hp hfit.bound))
  · obtain ⟨hl, r, hr, -⟩ := learned_spec env p h n
    have hg := hg hi
    let l := learned env p h n
    have hlearn : PlanStep env o e ((Instant.idle n).owing (.link p)) ((Instant.idle l).owing (.link p)) :=
      .learn (s := .idle n) p _ h rfl hg
    have hfl : Fits k l := hl.length.trans_lt hf
    have hsome : (l.records.get? (n.conn p).peerId).isSome := by
      rw [show l.records.get? _ = _ from hr, Option.isSome_some]
    have hgl : Greets env o e (.idle l) p (n.conn p).peerId := by
      obtain ⟨rs, ts, d, a, j, hb, -⟩ := bindStatic_spec env p (n.conn p).peerId n
      obtain ⟨a', j', hrec, -⟩ := learnRecord_spec env p (n.conn p).peerId h (n.staticDialConn.get? p).isSome
        (bindStatic env p (n.conn p).peerId n)
      have htimers : l.timers = n.timers := by
        unfold l learned
        rw [hrec, hb]
      refine ⟨hg.event, hg.next, hg.other, htimers.trans hg.timers, rfl, hg.pos.trans hl.pos.1, ?_⟩
      -- the dial is no longer that of a static endpoint
      rintro old ⟨i, t, hi, -⟩
      have hfreed : l.staticDialConn.get? p = none := by
        unfold l learned
        rw [hrec]
        exact bindStatic_freed p _ n
      cases hfreed.symm.trans hi
    have hseen : ∃ i, o.pos ≤ i ∧ (l.record (n.conn p).peerId).lastSeen = env.oracle.clock i := by
      obtain ⟨i, a, b, hi, -, hrec⟩ := learned_records env p h n
      exact ⟨i, hg.pos.trans hi, by rw [Node.record, show l.records.get? _ = _ from hrec]; rfl⟩
    refine .head hlearn ?_
    cases hex : existingLink p (n.conn p).peerId l with
    | none =>
      rw [onPeerHandshake_first (K := managerSink env k) hi hex, ← hex]
      exact takeLink_planSteps h hsome hfl hgl hseen
    | some q =>
      rw [onPeerHandshake_second (K := managerSink env k) hi hex]
      have hderef (s : Instant S) : PlanStep env o e (s.on l) (s.on (l.deref [q])) :=
        .aside (s := s.on l) (.deref l [q])
      refine .head (hderef ((Instant.idle l).owing (.link p))) ?_
      split_ifs
      · have hclose := (closeGracefully_planCall env o e k p (l.deref [q]) hfl.bound).1
          ((Instant.idle l).owing (.link p))
        have hpl : ((l.deref [q]).conn p).dead = false := by
          rw [Node.conn, Node.deref, hl.heap]
          exact hp
        exact hclose.tail (.leave (s := .idle _) p (closeGracefully_grave hpl (n := l.deref [q]) hfl.bound))
      · rw [← hex]
        exact takeLink_planSteps (n := l.deref [q]) h hsome hfl
          ⟨hgl.event, hgl.next, hgl.other, hgl.timers, rfl, hgl.pos, hgl.outdated⟩ hseen

end Links

end Multimaster
