import Multimaster.Manager.Checks

/-! The limits that `tick` enforces: how long a handshake may take, how long an Established link may be silent, and how
long it may go without sending. -/

namespace Multimaster

variable {S : Suite} {env : Env S} {o : Node S} {e : Option Event}

/-- The event at place `i` of the run is a `tick` of the running node. -/
def TicksAt (env : Env S) (es : List Event) (i : ℕ) : Prop := (reached env es i).running = true ∧
  ∃ j, es[i]? = some (.timer j) ∧ ∃ due, (reached env es i).timers[j]? = some (due, .tick)

/-- If the event is a `tick`, its loop over `conns_` dials nothing, so that the vector stays where it is. -/
def DialFree (env : Env S) (n : Node S) (e : Event) : Prop :=
  ∀ i due, e = .timer i → n.timers[i]? = some (due, .tick) → n.running = true → ∀ l, l <+: n.conns →
    (l.foldl (sweepBody (managerSink env (depth n)) (env.oracle.clock n.pos)) (n.ticking i)).conns = n.conns

/-- The time at which the event at place `i` of the run begins. -/
def startOf (env : Env S) (es : List Event) (i : ℕ) : ℤ := env.oracle.clock (reached env es i).pos

section Runs

variable {es : List Event} {i : ℕ}

lemma run_of_reached (hm : Monotone env.oracle.clock) {I : Node S → Prop} {ev : Event} (hev : es[i]? = some ev)
    (keep : ∀ n e, startOf env es i ≤ env.oracle.clock n.pos → I n → I (step env n e))
    (hi : I (reached env es (i + 1))) : I (run env es) := by
  have hlen : i + 1 ≤ es.length := (List.getElem?_eq_some_iff.mp hev).1
  have hlater : startOf env es i ≤ env.oracle.clock (reached env es es.length).pos ∧ I (reached env es es.length) := by
    refine reached_from (I := fun n => startOf env es i ≤ env.oracle.clock n.pos ∧ I n) hlen (fun l e _ _ _ hl => ?_) ?_
    · exact ⟨hl.1.trans (hm (step_pos_le env _ e)), keep _ e hl.1 hl.2⟩
    · exact ⟨hm (reached_pos_le (Nat.le_succ i)), hi⟩
  rw [reached, List.take_length] at hlater
  exact hlater.2

lemma ticked_checked (hm : Monotone env.oracle.clock) (hi : 0 < env.cfg.heartbeatInterval)
    (hh : 0 ≤ env.cfg.handshakeTimeout) (hr : 0 ≤ env.cfg.heartbeatTimeout)
    (hfree : Along env (DialFree env) (started env) es) (ht : TicksAt env es i) {q : Ptr}
    {d : PeerConnection S} (hd : (reached env es (i + 1)).heap.get? q = some d) : Checked env (startOf env es i) d := by
  obtain ⟨hrun, j, hj, due, ht⟩ := ht
  let n := reached env es i
  rw [reached_succ hj] at hd
  rcases (step_planSteps env n (.timer j)).descends hm le_rfl hd with hnew | ⟨c, hc, -⟩
  · refine ⟨hnew.prompt hh hr le_rfl, fun _ _ _ => ?_⟩
    have hlate : startOf env es i ≤ d.lastSend := hnew.send
    omega
  · have hstep : step env n (.timer j) = tick (managerSink env (depth n)) { n with timers := n.timers.eraseIdx j } := by
      have ht : n.timers[j]? = some (due, .tick) := ht
      simp only [step, Event.target, Option.any_none, Bool.false_eq_true, if_false, perform, ht, fireTimer]
      rfl
    have hown : q ∈ n.conns := by
      rcases ((run_tidy env (es.take i)).owned q).mp (Option.isSome_of_mem hc) with h | h
      · exact h
      · cases h
    obtain ⟨b, hb, hchecked⟩ := tick_checked (o := n) (n := { n with timers := n.timers.eraseIdx j }) (k := depth n)
      hm hi
      (Nat.lt_succ_of_lt (Nat.lt_succ_self _)) rfl hrun (along_reached hfree hj j due rfl ht hrun) hown hc
      (run_state_dead env _ q c hc)
    rw [← hstep] at hb
    cases hb.symm.trans hd
    exact hchecked

theorem overdue_closed (env : Env S) (hm : Monotone env.oracle.clock) (hi : 0 < env.cfg.heartbeatInterval)
    (hh : 0 ≤ env.cfg.handshakeTimeout) (hr : 0 ≤ env.cfg.heartbeatTimeout) (es : List Event)
    (hfree : Along env (DialFree env) (started env) es) (i : ℕ) (ht : TicksAt env es i) (q : Ptr)
    (c : PeerConnection S) (hc : (run env es).heap.get? q = some c) :
    Prompt env (startOf env es i) c := by
  have hchecked (q : Ptr) (c : PeerConnection S) (hc : (reached env es (i + 1)).heap.get? q = some c) :=
    ticked_checked hm hi hh hr hfree ht hc
  obtain ⟨-, j, hj, -⟩ := ht
  exact run_of_reached hm (I := fun n => ∀ q c, n.heap.get? q = some c → Prompt env (startOf env es i) c) hj
    (fun n e hT h q c hc => step_prompt hm hh hr hT h hc) (fun q c hc => (hchecked q c hc).toPrompt) q c hc

/-- The link was Established when the event at place `i` of the run began. -/
def UpAt (env : Env S) (es : List Event) (i : ℕ) (q : Ptr) : Prop :=
  ∃ c, (reached env es i).heap.get? q = some c ∧ c.state = .established

theorem heartbeats_kept (env : Env S) (hm : Monotone env.oracle.clock) (hi : 0 < env.cfg.heartbeatInterval)
    (hh : 0 ≤ env.cfg.handshakeTimeout) (hr : 0 ≤ env.cfg.heartbeatTimeout)
    (hpol : env.cfg.overflowPolicy ≠ .dropNewest) (es : List Event)
    (hfree : Along env (DialFree env) (started env) es) (i : ℕ) (ht : TicksAt env es i) (q : Ptr)
    (hup : UpAt env es i q) (c : PeerConnection S) (hc : (run env es).heap.get? q = some c) (hal : c.dead = false) :
    startOf env es i - c.lastSend < env.cfg.heartbeatInterval := by
  have hchecked (d : PeerConnection S) (hd : (reached env es (i + 1)).heap.get? q = some d) :=
    ticked_checked hm hi hh hr hfree ht hd
  obtain ⟨-, j, hj, -⟩ := ht
  obtain ⟨b, hb, hest⟩ := hup
  refine run_of_reached hm (I := fun n => ∀ c, n.heap.get? q = some c → c.dead = false →
    startOf env es i - c.lastSend < env.cfg.heartbeatInterval) hj (fun n e hT h d hd hal => ?_) (fun d hd hal => ?_)
    c hc hal
  · rcases (step_planSteps env n e).descends hm le_rfl hd with hnew | ⟨x, hx, hxd⟩
    · have hlate := hnew.send
      omega
    · rcases hxd.send with hsend | hlate
      · rw [hsend]
        exact h x hx (hxd.alive hal)
      · omega
  · have hbeats := (hchecked d hd).beats hpol hal
    rw [reached_succ hj] at hd
    rcases (step_planSteps env _ _).descends hm le_rfl hd with hnew | ⟨x, hx, hxd⟩
    · have hlate : startOf env es i ≤ d.lastSend := hnew.send
      omega
    · cases hb.symm.trans hx
      exact hbeats (hxd.settled hal hest)

end Runs

def attended : List Event := greeted (Octets.fill [2]) ++ [.accept default, .timer 1]

lemma attended_dialFree : Along Env.ticking (DialFree Env.ticking) (started Env.ticking) attended := by
  refine ⟨?_, ?_, ?_, ?_, ?_, trivial⟩
  iterate 4
    intro i due he
    cases he
  intro i due he ht hrun l hl
  cases he
  obtain ⟨l', hl'⟩ := hl
  have hswept : Swept Env.ticking (depth (reached Env.ticking attended 4)) 4800
      ((reached Env.ticking attended 4).ticking 1) (reached Env.ticking attended 4).conns := by decide +kernel
  have hconns : (reached Env.ticking attended 4).conns = l ++ l' := hl'.symm
  rw [hconns] at hswept
  exact hswept.conns l

theorem overdue_closed_attended : TicksAt Env.ticking attended 4 ∧ (run Env.ticking attended).conns = [1, 2] ∧
    startOf Env.ticking attended 4 = 4800 ∧ ∀ p ∈ [1, 2],
      Prompt Env.ticking 4800 ((run Env.ticking attended).conn p) := by
  have ht : TicksAt Env.ticking attended 4 := ⟨by decide +kernel, 1, rfl, 2000, by decide +kernel⟩
  have hT : startOf Env.ticking attended 4 = 4800 := by decide +kernel
  refine ⟨ht, by decide +kernel, hT, fun p hp => ?_⟩
  have hsome : ((run Env.ticking attended).heap.get? p).isSome := by
    revert p
    decide +kernel
  obtain ⟨c, hc⟩ := Option.isSome_iff_exists.mp hsome
  rw [Node.conn_of_get? hc, ← hT]
  exact overdue_closed Env.ticking ticking_monotone (by decide) (by decide) (by decide) attended attended_dialFree 4
    ht p c hc

theorem heartbeats_kept_attended : UpAt Env.ticking attended 4 1 ∧
    4800 - ((reached Env.ticking attended 4).conn 1).lastSend = 1400 ∧
    4800 - ((run Env.ticking attended).conn 1).lastSend < 1000 := by
  have ht : TicksAt Env.ticking attended 4 := ⟨by decide +kernel, 1, rfl, 2000, by decide +kernel⟩
  have hT : startOf Env.ticking attended 4 = 4800 := by decide +kernel
  have hup : UpAt Env.ticking attended 4 1 := by
    obtain ⟨c, hc⟩ := Option.isSome_iff_exists.mp
      (show ((reached Env.ticking attended 4).heap.get? 1).isSome by decide +kernel)
    refine ⟨c, hc, ?_⟩
    rw [← Node.conn_of_get? hc]
    decide +kernel
  have hal : ((run Env.ticking attended).conn 1).dead = false := by decide +kernel
  refine ⟨hup, by decide +kernel, ?_⟩
  rw [← hT]
  exact heartbeats_kept Env.ticking ticking_monotone (by decide) (by decide) (by decide) (by decide) attended
    attended_dialFree 4 ht 1 hup _ (Node.get?_of_alive hal) hal

end Multimaster
