import Multimaster.Manager.Traced

/-! A node with a group key sends no application frame in the clear. -/

namespace Multimaster

variable {S : Suite} {env : Env S} {k : ℕ}

structure Hushed (env : Env S) (n : Node S) : Prop where
  live : Live [] n
  conn : ∀ p c, n.heap.get? p = some c → Guarded c
  traced : AllTraced env.cfg.maxMessageBytes n

section Hushed

variable {n m : Node S}

lemma Hushed.secured (h : Hushed env n) : Secured n where
  link id p hp := by
    obtain ⟨-, c, hc, -, hs, -⟩ := h.live.link id p hp
    exact ⟨c, hc, .inr hs⟩
  conn := h.conn

lemma Hushed.guards (h : Hushed env n) (hm : Live [] m) (g : Guards n m) : Hushed env m :=
  ⟨hm, (g h.secured).1.conn, h.traced.guards h.secured g⟩

lemma Hushed.takes (h : Hushed env n) (hm : Live [] m) {p : Ptr} {g : Past S → Past S}
    (t : Takes p g n m) (hp : n.heap.get? p = some (n.conn p))
    (hg : Traced env.cfg.maxMessageBytes (n.conn p).past →
      Traced env.cfg.maxMessageBytes (g (n.conn p).past)) : Hushed env m :=
  ⟨hm, (t h.secured).1.conn, h.traced.takes h.secured t hp hg⟩

lemma Hushed.sub (h : Hushed env n) (hm : Live [] m)
    (hs : ∀ p c, m.heap.get? p = some c → n.heap.get? p = some c) : Hushed env m :=
  ⟨hm, fun p c hc => h.conn p c (hs p c hc), fun p c hc => h.traced p c (hs p c hc)⟩

variable (hsec : env.self.secure = true)

include hsec

lemma timer_hushed {kind : TimerKind} (h : Hushed env n) (hm : Live [] (fireTimer (managerSink env k) kind n)) :
    Hushed env (fireTimer (managerSink env k) kind n) := by
  cases kind with
  | tick => exact h.guards hm (tick_guards hsec n)
  | reap =>
    refine h.sub hm fun p c hc => ?_
    have hc' : (reapDead n).heap.get? p = some c := hc
    rw [h.live.get?_reapDead] at hc'
    split_ifs at hc'
    exact hc'
  | reconnect id => exact h.guards hm (onReconnectTimer_guards hsec id n)
  | evictSweep rearm =>
    refine h.guards hm ?_
    unfold fireTimer evictTimer
    dsimp only
    split_ifs <;> exact .of_fields rfl rfl

lemma plaintextTurn_hushed {p : Ptr} (h : Hushed env n) (hp : n.heap.get? p = some (n.conn p))
    (hm : Live [] (plaintextTurn (managerListener env k) p n).world) :
    Hushed env (plaintextTurn (managerListener env k) p n).world := by
  unfold plaintextTurn at hm ⊢
  split at hm
  · exact h
  · exact h.guards hm (fail_guards (closing_guards hsec k) p _ _ _ n)
  · next f consumed hd =>
    have ht := dispatch_takes (k := k) hsec f consumed .inBuf hp
    dsimp only at hm ⊢
    split_ifs at hm ⊢ <;> exact h.takes hm ht hp fun k => k.plain f consumed

lemma secureTurn_hushed {p : Ptr} (h : Hushed env n) (hp : n.heap.get? p = some (n.conn p))
    (hm : Live [] (secureTurn (managerListener env k) p n).world) :
    Hushed env (secureTurn (managerListener env k) p n).world := by
  unfold secureTurn at hm ⊢
  split at hm
  · exact h
  · exact h.guards hm (fail_guards (closing_guards hsec k) p _ _ _ n)
  · next f consumed hd =>
    have ht := dispatch_takes (k := k) hsec f consumed .plainBuf hp
    dsimp only at hm ⊢
    split_ifs at hm ⊢ <;> exact h.takes hm ht hp fun k => k.record hd

lemma recordTurn_hushed {p : Ptr} (h : Hushed env n) (hp : n.heap.get? p = some (n.conn p))
    (hm : Live [] (recordTurn (managerListener env k) p n).world) :
    Hushed env (recordTurn (managerListener env k) p n).world := by
  rw [recordTurn_eq] at hm ⊢
  split at hm
  · exact h
  · exact h.guards hm (fail_guards (closing_guards hsec k) p _ _ _ n)
  · exact h.guards hm (fail_guards (closing_guards hsec k) p _ _ _ n)
  · next pt len _ =>
    have ht : Takes p (fun x => (x.1 ++ pt, x.2.1 ++ [pt], x.2.2)) n
        (n.setConn p ((n.conn p).absorb pt len)) := by
      refine .set (fun hg => ⟨hg.secure, fun hs => ?_, hg.sent⟩) id rfl rfl
      have := hg.keyed hs
      simpa [PeerConnection.absorb] using this
    exact h.takes hm ht hp fun k => k.opened pt

lemma step_hushed {e : Event} (h : Hushed env n) (he : NoZeroHello env n e) :
    Hushed env (step env n e) := by
  have hm : Live [] (step env n e) :=
    (step_linkSteps h.live.owned he.licensed).preserves (fun mv h => h.linkStep mv) h.live
  have hC := closing_guards hsec (depth n)
  unfold step at hm ⊢
  split_ifs at hm ⊢ with hd
  · exact h
  have alive {p : Ptr} (ht : e.target = some p) : n.heap.get? p = some (n.conn p) := by
    rw [ht] at hd
    exact Node.get?_of_alive (by simpa using hd)
  cases e with
  | discovered id port ip => exact h.guards hm (onDiscovered_guards hsec id port ip n)
  | accept addr => exact h.guards hm (acceptConnection_guards hsec addr n)
  | hangup p => exact h.guards hm (fail_guards hC p _ _ _ n)
  | eof p => exact h.guards hm (fail_guards hC p _ _ _ n)
  | recvError p err => exact h.guards hm (fail_guards hC p _ _ _ n)
  | connected p =>
    simp only [perform] at hm ⊢
    split_ifs at hm ⊢ with hs
    · exact h.guards hm (onConnectComplete_guards hC hs)
    · exact h
  | writable p =>
    simp only [perform] at hm ⊢
    split_ifs at hm ⊢
    · exact h
    · exact h.guards hm (flushOutbound_guards hC p n)
  | receive p l =>
    simp only [perform] at hm ⊢
    split_ifs at hm ⊢
    · exact h
    · exact h.guards hm (.modify p (by intro; rfl) n)
  | plaintextTurn p =>
    simp only [perform] at hm ⊢
    split_ifs at hm ⊢
    · exact h
    · exact plaintextTurn_hushed hsec h (alive rfl) hm
  | recordTurn p =>
    simp only [perform] at hm ⊢
    split_ifs at hm ⊢
    · exact recordTurn_hushed hsec h (alive rfl) hm
    · exact h
  | secureTurn p =>
    simp only [perform] at hm ⊢
    split_ifs at hm ⊢
    · exact secureTurn_hushed hsec h (alive rfl) hm
    · exact h
  | timer i =>
    simp only [perform] at hm ⊢
    split at hm
    · exact h
    · have hq : Hushed env { n with timers := n.timers.eraseIdx i } :=
        h.guards (h.live.congr rfl rfl rfl rfl rfl rfl) (.of_fields rfl rfl)
      exact timer_hushed hsec hq hm
  | broadcast payload =>
    exact h.guards hm (Guards.after (n := n) (applyRouter_guards hsec _ n.bump) rfl rfl)
  | send dst payload =>
    exact h.guards hm (Guards.after (n := n) (applyRouter_guards hsec _ n.bump) rfl rfl)
  | shutdown => exact h.sub hm fun p c hc => by cases hc

lemma hushed_run {es : List Event} (h : Along env (NoZeroHello env) (started env) es) :
    Hushed env (run env es) := by
  refine run_induction (I := Hushed env) ?_ (fun n e hn he => step_hushed hsec hn he) h
  have hl : Live [] (run env []) := live_run trivial
  have hg : Guards (Node.initial env) (started env) := by
    unfold started start
    extract_lets cfg period n₁ targets n₂
    have h₂ : Guards { n₁ with staticTargets := n₁.staticTargets ++ targets } n₂ :=
      (dialSeeds_guards hsec _).trans (maintainStaticPeers_guards (closing_guards hsec _) hsec _)
    exact Guards.after (h₂.trans (.of_fields rfl rfl)) rfl rfl
  have hi : Secured (Node.initial env) := ⟨fun id p hp => (by cases hp), fun p c hc => (by cases hc)⟩
  have ht : AllTraced env.cfg.maxMessageBytes (Node.initial env) := fun p c hc => by cases hc
  exact ⟨hl, (hg hi).1.conn, ht.guards hi hg⟩

end Hushed

end Multimaster
