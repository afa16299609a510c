import Multimaster.Manager.LinkEvents

/-! Sends that succeed change nothing but the output of a connection. -/

namespace Multimaster

variable {S : Suite} {env : Env S} {k : ℕ}

structure Discreet (n m : Node S) : Prop where
  conns : m.conns = n.conns
  conn : ∀ p, Touch (n.conn p) (m.conn p)
  estab : m.estab = n.estab
  records : m.records = n.records
  neighbors : m.membership = n.membership
  notices : ∃ l, m.notices = n.notices ++ l ∧ ∀ x ∈ l, x.aside = true

namespace Discreet

variable {n m o : Node S}

lemma of_eq (h : m.heap = n.heap) (hc : m.conns = n.conns) (he : m.estab = n.estab)
    (hr : m.records = n.records) (hm : m.membership = n.membership)
    (hn : ∃ l, m.notices = n.notices ++ l ∧ ∀ x ∈ l, x.aside = true) : Discreet n m :=
  ⟨hc, fun p => by rw [Node.conn, Node.conn, h]; rfl, he, hr, hm, hn⟩

lemma refl (n : Node S) : Discreet n n :=
  of_eq rfl rfl rfl rfl rfl ⟨[], (List.append_nil _).symm, by simp⟩

lemma trans (h : Discreet n m) (g : Discreet m o) : Discreet n o := by
  obtain ⟨l, hl, ha⟩ := h.notices
  obtain ⟨l', hl', ha'⟩ := g.notices
  refine ⟨g.conns.trans h.conns, fun p => (h.conn p).trans (g.conn p), g.estab.trans h.estab,
    g.records.trans h.records, g.neighbors.trans h.neighbors, l ++ l', ?_, ?_⟩
  · rw [hl', hl, List.append_assoc]
  · intro x hx
    rcases List.mem_append.mp hx with hx | hx
    · exact ha x hx
    · exact ha' x hx

lemma bump (n : Node S) : Discreet n n.bump :=
  of_eq rfl rfl rfl rfl rfl ⟨[], (List.append_nil _).symm, by simp⟩

lemma touch (n : Node S) (p : Ptr) {f : PeerConnection S → PeerConnection S} (h : ∀ c, Touch c (f c)) :
    Discreet n ((managerSink env k).modify p f n) := by
  change Discreet n (n.setConn p (f (n.conn p)))
  refine ⟨rfl, fun q => ?_, rfl, rfl, rfl, [], (List.append_nil _).symm, by simp⟩
  rw [Node.conn_setConn]
  split_ifs with hq
  · rw [hq.1]
    exact h _
  · rfl

lemma report (n : Node S) (e : Error) : Discreet n (n.notify [.onError e]) :=
  of_eq rfl rfl rfl rfl rfl ⟨_, rfl, by simp [Notice.aside]⟩

end Discreet

def SendAnswer.fine : SendAnswer → Bool
  | .error _ | .wrote 0 => false
  | _ => true

lemma sendLoop_fine {as : List SendAnswer} (h : ∀ a ∈ as, a.fine = true) (out : Bytes) :
    (sendLoop as out).2.2 = none := by
  fun_induction sendLoop as out with
  | case1 | case2 | case3 => rfl
  | case4 as out _ ih => exact ih fun a ha => h a (List.mem_cons_of_mem _ ha)
  | case5 e => simpa [SendAnswer.fine] using h (.error e) List.mem_cons_self
  | case6 => simpa [SendAnswer.fine] using h (.wrote 0) List.mem_cons_self
  | case7 n as out _ _ r ih => exact ih fun a ha => h a (List.mem_cons_of_mem _ ha)

section Sending

variable (k) {n : Node S} (p : Ptr)

lemma updateEpoll_discreet : Discreet n (updateEpoll (managerSink env k) p n) := by
  unfold updateEpoll
  extract_lets c needWrite
  split_ifs
  · exact .refl n
  · exact .refl n
  · exact (Discreet.bump n).trans (.touch _ p (by intro; rfl))
  · exact .bump n

lemma transmit_discreet (rec : Bytes) (item : Sent S)
    (hs : ∀ a ∈ env.oracle.send (n.pos + 1), a.fine = true) :
    Discreet n (transmit (managerSink env k) p rec item n) := by
  unfold transmit
  extract_lets now m
  have hm : Discreet n m := (Discreet.bump n).trans (.touch _ p (by intro; rfl))
  refine hm.trans ?_
  unfold flushOutbound
  extract_lets r o
  have ho : Discreet m o := (Discreet.bump m).trans (.touch _ p (by intro; rfl))
  have hr : r.2.2 = none := sendLoop_fine hs _
  rw [hr]
  exact ho.trans (updateEpoll_discreet k p)

lemma enqueue_discreet (f : Frame S)
    (hf : env.cfg.overflowPolicy = .disconnect →
      (n.conn p).outBuf.length + (sealFrame (n.conn p) f).1.length ≤ env.cfg.maxOutboundQueueBytes)
    (hs : ∀ a ∈ env.oracle.send (n.pos + 1), a.fine = true) :
    Discreet n (enqueue (managerSink env k) p f n) := by
  unfold enqueue
  extract_lets c r m o
  have hm : Discreet n m := .touch n p (by intro; rfl)
  have ho : Discreet n o := hm.trans (.touch m p (by intro; rfl))
  split_ifs with hd hover
  · exact .refl n
  · split
    · next hpol => exact absurd (hf hpol) (Nat.not_le_of_lt hover)
    · exact ho.trans (.report o _)
    · exact ho.trans ((Discreet.touch o p (by intro; rfl)).trans (transmit_discreet k p _ _ hs))
  · exact hm.trans (transmit_discreet k p _ _ hs)

end Sending

end Multimaster
