import Multimaster.Manager.Stamps

/-! What the calls of `tick` leave of a connection and of the time it last sent something. -/

namespace Multimaster

variable {S : Suite} {env : Env S} {o : Node S} {e : Option Event}

section Calls

variable {k : ℕ} {n m l : Node S}

def Endures (env : Env S) (o : Node S) (k : ℕ) (n m : Node S) : Prop := Fits k n → o.pos ≤ n.pos →
  Fits k m ∧ o.pos ≤ m.pos ∧ ∀ q c, n.heap.get? q = some c → ∃ d, m.heap.get? q = some d ∧ Survives c d ∧
    (d.lastSend = c.lastSend ∨ env.oracle.clock o.pos ≤ d.lastSend)

namespace Endures

lemma trans (h : Endures env o k n m) (g : Endures env o k m l) : Endures env o k n l := by
  intro hn hpos
  obtain ⟨hm, hposm, hobj⟩ := h hn hpos
  obtain ⟨hl, hposl, hobj'⟩ := g hm hposm
  refine ⟨hl, hposl, fun q c hc => ?_⟩
  obtain ⟨d, hd, hcd, hsend⟩ := hobj q c hc
  obtain ⟨b, hb, hdb, hsend'⟩ := hobj' q d hd
  refine ⟨b, hb, hcd.trans hdb, ?_⟩
  rcases hsend' with h | h
  · rw [h]
    exact hsend
  · exact .inr h

lemma of_planRun (h : PlanRun env o e k n m) (hk : ∀ q c, n.heap.get? q = some c → m.heap.get? q = some c) :
    Endures env o k n m := by
  intro hn hpos
  obtain ⟨hact, hm⟩ := h hn
  exact ⟨hm, hpos.trans (PlanSteps.pos_le (hact (.idle n))), fun q c hc => ⟨c, hk q c hc, .inl (.refl c), .inl rfl⟩⟩

lemma of_heap (h : PlanRun env o e k n m) (hh : m.heap = n.heap) : Endures env o k n m :=
  of_planRun h fun q c hc => by rw [hh, hc]

lemma refl (n : Node S) : Endures env o k n n := of_heap (e := none) (.refl n) rfl

lemma of_calls (hm : Monotone env.oracle.clock) (hd : BookCall env k n m) (hi : PlanCall env o e k n m) :
    Endures env o k n m := by
  intro hn hpos
  obtain ⟨hact, -, hlen⟩ := hi hn.bound
  refine ⟨hlen.trans_lt hn, hpos.trans (PlanSteps.pos_le (hact (.idle n))), fun q c hc => ?_⟩
  obtain ⟨d, hdq, hcd⟩ := BookChanges.survives (hd hn.bound (.idle n)) hc
  refine ⟨d, hdq, hcd, ?_⟩
  rcases PlanSteps.descends hm (hact (.idle n)) hpos hdq with hnew | ⟨b, hb, hbd⟩
  · exact .inr hnew.send
  · cases hc.symm.trans hb
    exact hbd.send

lemma foldl {α : Type} {f : Node S → α → Node S} (h : ∀ n a, Endures env o k n (f n a)) (xs : List α) (n : Node S) :
    Endures env o k n (xs.foldl f n) := by
  induction xs generalizing n with
  | nil => exact refl n
  | cons a xs ih => exact (h n a).trans (ih _)

end Endures

variable (hm : Monotone env.oracle.clock)

include hm

lemma sweepBody_endures (now : ℤ) (n : Node S) (p : Ptr) :
    Endures env o k n (sweepBody (managerSink env k) now n p) :=
  .of_calls (e := none) hm (sweepBody_bookCall now n p) (sweepBody_planCall now n p)

lemma dialSeeds_endures (n : Node S) : Endures env o k n (dialSeeds (managerSink env k) n) := by
  unfold dialSeeds
  split_ifs
  · exact .refl n
  · refine .foldl (fun n s => ?_) _ n
    unfold dialSeed
    split
    · exact .of_heap (e := none) (.of_beside (.bump n)) rfl
    · next addr h =>
      have hopen : Endures env o k n.bump (newOutbound env addr n.bump).2 := by
        refine .of_planRun (e := none) (.of_planStep (fun s => .outbound (s := s.on n.bump) addr) rfl) fun q c hc => ?_
        have hne : q ≠ n.bump.freshPtr env := by
          rintro rfl
          rw [Node.freshPtr_free] at hc
          cases hc
        exact (Dict.get?_insert_ne n.bump.heap _ hne).trans hc
      have hbump : Endures env o k n n.bump := .of_heap (e := none) (.of_beside (.bump n)) rfl
      exact hbump.trans (hopen.trans (.of_calls (e := none) hm ((respects_bookCall env k).startConnect _ _)
        ((admits_planCall env o none k).startConnect _ _)))

end Calls

section Sends

variable {k : ℕ} {n : Node S} {p : Ptr} {c d : PeerConnection S}

lemma markDead_grave (hc : n.heap.get? p = some c) (hb : bound n < k) : Grave (markDead (managerSink env k) p n) p := by
  cases k with
  | zero => exact absurd hb (Nat.not_lt_zero _)
  | succ k =>
    unfold markDead
    split_ifs with hd
    · exact ⟨c, hc, by rw [← Node.conn_of_get? hc]; exact hd⟩
    · have hdying : Grave (dying p n) p := by
        refine ⟨(n.conn p).killed, ?_, rfl⟩
        exact Node.get?_setConn_self _ (by rw [hc, Option.isSome_some])
      exact (onPeerClosed_ends (respects_bookCall env k) n p hb (.idle n)).grave hdying

lemma fail_grave (hc : n.heap.get? p = some c) (hb : bound n < k) (cat : ErrorCategory) (err : ℤ) (what : String) :
    Grave (fail (managerSink env k) p cat err what n) p := by
  unfold fail
  extract_lets x n₁ n₂
  have h₁ : n₁.heap.get? p = some { n.conn p with failure := some (cat, err, what) } :=
    Node.get?_setConn_self _ (by rw [hc, Option.isSome_some])
  have h₂ : n₂.heap = n₁.heap ∧ n₂.records = n.records := by
    unfold n₂
    split_ifs <;> exact ⟨rfl, rfl⟩
  split_ifs with hd
  · exact ⟨c, hc, by rw [← Node.conn_of_get? hc]; exact hd⟩
  · refine markDead_grave (by rw [h₂.1, h₁]) ?_
    rw [bound, h₂.2]
    exact hb

variable (hm : Monotone env.oracle.clock)

include hm

lemma transmit_lastSend (rec : Bytes) (item : Sent S) (hc : n.heap.get? p = some c) (hb : bound n < k)
    (hpos : o.pos ≤ n.pos) (hd : (transmit (managerSink env k) p rec item n).heap.get? p = some d) :
    env.oracle.clock o.pos ≤ d.lastSend := by
  let m := appended env p rec item n
  have hmp : m.heap.get? p = some { n.conn p with
      outBuf := (n.conn p).outBuf ++ rec, lastSend := env.oracle.clock n.pos, sent := (n.conn p).sent ++ [item] } :=
    Node.get?_setConn_self (n := n.bump) _ (by rw [Node.bump, hc, Option.isSome_some])
  have hflush : PlanCall env o none k m (flushOutbound (managerSink env k) p m) :=
    (admits_planCall env o none k).flushOutbound p m
  rcases PlanSteps.descends hm ((hflush hb).1 (.idle m)) (hpos.trans (Nat.le_succ _)) hd with hnew | ⟨b, hb, hbd⟩
  · exact hnew.send
  · cases hmp.symm.trans hb
    rcases hbd.send with h | h
    · rw [h]
      exact hm hpos
    · exact h

lemma enqueue_lastSend (hpol : env.cfg.overflowPolicy ≠ .dropNewest) (f : Frame S) (hc : n.heap.get? p = some c)
    (hb : bound n < k) (hpos : o.pos ≤ n.pos) (hd : (enqueue (managerSink env k) p f n).heap.get? p = some d) :
    d.dead = true ∨ env.oracle.clock o.pos ≤ d.lastSend := by
  have some_set {n : Node S} {x : PeerConnection S} (hn : (n.heap.get? p).isSome) :
      ((n.setConn p x).heap.get? p).isSome := by rw [Node.get?_setConn_self _ hn, Option.isSome_some]
  have hsome : (n.heap.get? p).isSome := by rw [hc, Option.isSome_some]
  unfold enqueue at hd
  extract_lets x r n₁ n₂ at hd
  obtain ⟨c₁, h₁⟩ := Option.isSome_iff_exists.mp (some_set (x := { n.conn p with sess := r.2.2 }) hsome)
  obtain ⟨c₂, h₂⟩ := Option.isSome_iff_exists.mp
    (some_set (x := { n₁.conn p with overflowed := true }) (Option.isSome_of_mem h₁))
  split_ifs at hd with hdead hfull
  · left
    cases hc.symm.trans hd
    rw [← Node.conn_of_get? hc]
    exact hdead
  · split at hd
    · have hgrave : Grave (fail (managerSink env k) p .backpressure 0 "outbound queue overflow" n₂) p :=
        fail_grave h₂ hb _ _ _
      obtain ⟨b, hbq, hdead⟩ := hgrave
      cases hbq.symm.trans hd
      exact .inl hdead
    · next h => exact absurd h hpol
    · obtain ⟨c₃, h₃⟩ := Option.isSome_iff_exists.mp
        (some_set (x := { n₂.conn p with outBuf := [] }) (Option.isSome_of_mem h₂))
      exact .inr (transmit_lastSend hm _ _ h₃ hb hpos hd)
  · exact .inr (transmit_lastSend hm _ _ h₁ hb hpos hd)

end Sends

end Multimaster
