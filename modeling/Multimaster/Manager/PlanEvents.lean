import Multimaster.Manager.PlanTimers

/-! Every event is a sequence of plan steps, and the rule for invariants that follows from it. -/

namespace Multimaster

variable {S : Suite} {env : Env S} {o : Node S} {e : Option Event} {k : ℕ}

section Turns

variable {p : Ptr} (hf : o.records.keys.length + 1 < k) (hp : (o.conn p).dead = false)

include hf

omit hf in
lemma recordTurn_planRun (p : Ptr) (n : Node S) :
    PlanRun env o e k n (recordTurn (managerListener env k) p n).world := by
  unfold recordTurn
  extract_lets c clen
  split_ifs
  · exact .refl n
  · exact fail_planRun env o e k p _ _ _ n
  · exact .refl n
  · split
    · exact fail_planRun env o e k p _ _ _ n
    · exact .tend rfl

include hp

lemma plaintextTurn_planSteps (he : e = some (.plaintextTurn p)) (hs : (o.conn p).state ≠ .connectingOut)
    (hm : sealedMode (o.conn p) = false) :
    PlanSteps env o e (.idle o) (.idle (plaintextTurn (managerListener env k) p o).world) := by
  have hfit : Fits k o := Nat.lt_of_succ_lt hf
  unfold plaintextTurn
  split
  · exact .refl
  · exact (fail_planRun env o e k p _ _ _ o hfit).1 (.idle o)
  · next f consumed hdec =>
    have hdec : tryDecodeFrame (o.conn p).inBuf env.cfg.maxMessageBytes = .ok f consumed := hdec
    have hh : Event.Hands env o (.plaintextTurn p) p f := by
      refine ⟨?_, hp, .inl ⟨rfl, hs, hm⟩⟩
      simp only [Event.frame, hdec]
    have h := dispatch_planSteps he hh hf (fun pid hc => ⟨he, nextPeer_of_completes hdec hc⟩) consumed .inBuf
    dsimp only
    split_ifs <;> exact h

lemma secureTurn_planSteps (he : e = some (.secureTurn p)) (hm : sealedMode (o.conn p) = true) :
    PlanSteps env o e (.idle o) (.idle (secureTurn (managerListener env k) p o).world) := by
  have hfit : Fits k o := Nat.lt_of_succ_lt hf
  have hs : (o.conn p).state = .established := (sealedMode_iff.mp hm).2
  unfold secureTurn
  split
  · exact .refl
  · exact (fail_planRun env o e k p _ _ _ o hfit).1 (.idle o)
  · next f consumed hdec =>
    have hdec : tryDecodeFrame (o.conn p).plainBuf env.cfg.maxMessageBytes = .ok f consumed := hdec
    have hh : Event.Hands env o (.secureTurn p) p f := by
      refine ⟨?_, hp, .inr ⟨rfl, hm⟩⟩
      simp only [Event.frame, hdec]
    -- no handshake ends on a connection that is already Established
    have hnone (pid : PeerId) (hc : Completes env.self (o.conn p) f pid) :
        e = some (.plaintextTurn p) ∧ nextPeer env o p = some pid := by
      cases hc with
      | hello _ _ h _ => exact absurd (h.state.symm.trans hs) (by simp)
      | confirm _ _ h => exact absurd (h.symm.trans hs) (by simp)
    have h := dispatch_planSteps he hh hf hnone consumed .plainBuf
    dsimp only
    split_ifs <;> exact h

end Turns

lemma shutdown_planSteps (hf : Fits k o) (he : e = some .shutdown) :
    PlanSteps env o e (.idle o) (.idle (shutdown (managerSink env k) o)) := by
  unfold shutdown
  extract_lets n₁ n₂
  have h₂ : PlanCall env o e k n₁ n₂ := by
    refine .foldl (fun n p => ?_) _ _
    split_ifs
    · exact closeGracefully_planCall env o e k p n
    · exact .refl n
  have hclose : PlanSteps env o e (.idle n₁) (.idle n₂) := (h₂ (show bound o < k from hf.bound)).1 (.idle o)
  exact .head (.stop he) (hclose.tail (.clear _ he))

theorem step_planSteps (env : Env S) (n : Node S) (e : Event) :
    PlanSteps env n (some e) (.idle n) (.idle (step env n e)) := by
  have hf : n.records.keys.length + 1 < depth n := Nat.lt_succ_self _
  have hn : Fits (depth n) n := Nat.lt_of_succ_lt hf
  have use {m : Node S} (h : PlanRun env n (some e) (depth n) n m) : PlanSteps env n (some e) (.idle n) (.idle m) :=
    (h hn).1 (.idle n)
  have hI := admits_planCall env n (some e) (depth n)
  unfold step
  split_ifs with hd
  · exact .refl
  cases e with
  | discovered id port ip => exact onDiscovered_planSteps hf rfl
  | accept addr => exact acceptConnection_planSteps hn rfl
  | hangup p => exact use (fail_planRun env n _ _ p _ _ _ n)
  | eof p => exact use (fail_planRun env n _ _ p _ _ _ n)
  | recvError p err => exact use (fail_planRun env n _ _ p _ _ _ n)
  | connected p =>
    simp only [perform]
    split_ifs with hs
    · exact onConnectComplete_planSteps hn hs
    · exact .refl
  | writable p =>
    simp only [perform]
    split_ifs
    · exact .refl
    · exact use (.of_planCall (hI.flushOutbound p n))
  | receive p l =>
    simp only [perform]
    split_ifs
    · exact .refl
    · exact use (.tend rfl)
  | plaintextTurn p =>
    have hp : (n.conn p).dead = false := by simpa [Event.target] using hd
    simp only [perform]
    split_ifs with hs
    · exact .refl
    · rw [not_or] at hs
      exact plaintextTurn_planSteps hf hp rfl hs.1 (Bool.eq_false_of_not_eq_true hs.2)
  | recordTurn p =>
    simp only [perform]
    split_ifs
    · exact use (recordTurn_planRun p n)
    · exact .refl
  | secureTurn p =>
    have hp : (n.conn p).dead = false := by simpa [Event.target] using hd
    simp only [perform]
    split_ifs with hs
    · exact secureTurn_planSteps hf hp rfl hs
    · exact .refl
  | timer i =>
    simp only [perform]
    split
    · exact .refl
    · next t ht => exact fireTimer_planSteps rfl ht hn
  | broadcast payload =>
    exact use (.trans (.of_beside (.bump n)) (.of_planCall (applyRouter_planCall (broadcast_carries_data _ _ _ _ _) _)))
  | send dst payload =>
    exact use (.trans (.of_beside (.bump n))
      (.of_planCall (applyRouter_planCall (targeted_carries_data _ _ _ _ _ _) _)))
  | shutdown => exact shutdown_planSteps hn rfl

lemma starting_planSteps (env : Env S) : PlanSteps env (Node.initial env) none
    (.idle { Node.initial env with running := true }) (.idle (started env)) := by
  unfold started start
  extract_lets _ cfg period n₁ targets n₂
  let n₀ : Node S := { Node.initial env with running := true }
  let n : Node S := { n₁ with staticTargets := n₁.staticTargets ++ targets }
  have hn : Fits (depth (Node.initial env)) n₀ := Nat.lt_of_succ_lt (Nat.lt_succ_self _)
  have h₁ : PlanRun env (Node.initial env) none (depth (Node.initial env)) n₀ n₁ :=
    arrange_planRun _ (fun _ h => by cases h) _
  have h₂ : PlanRun env (Node.initial env) none (depth (Node.initial env)) n₁ n := .of_beside ⟨rfl, le_rfl⟩
  have h₃ : PlanRun env (Node.initial env) none (depth (Node.initial env)) n n₂ :=
    (dialSeeds_planRun n).trans (.of_planCall (maintainStaticPeers_planCall (admits_planCall env _ _ _) _))
  have h₄ : PlanRun env (Node.initial env) none (depth (Node.initial env)) n₂
      (n₂.addTimer env cfg.heartbeatInterval .tick) := arrange_planRun _ (fun _ h => by cases h) _
  exact ((h₁.trans (h₂.trans (h₃.trans h₄))) hn).1 (.idle n₀)

theorem started_planSteps (env : Env S) :
    PlanSteps env (Node.initial env) none (.idle (Node.initial env)) (.idle (started env)) :=
  .head (.begin rfl) (starting_planSteps env)

lemma PlanSteps.preserves {I : Instant S → Prop} (planStep : ∀ {s t}, PlanStep env o e s t → I s → I t)
    {s t : Instant S}
    (h : PlanSteps env o e s t) (hs : I s) : I t := by
  induction h with
  | refl => exact hs
  | tail _ h ih => exact planStep h ih

lemma planSteps_induction {P : Node S → Event → Prop} {I : Instant S → Prop} (start : I (.idle (Node.initial env)))
    (begun : ∀ {s t}, PlanStep env (Node.initial env) none s t → I s → I t)
    (planStep : ∀ {o e s t}, I (.idle o) → P o e → PlanStep env o (some e) s t → I s → I t) {es : List Event}
    (h : Along env P (started env) es) : I (.idle (run env es)) := by
  refine run_induction (I := fun n => I (.idle n)) (PlanSteps.preserves begun (started_planSteps env) start) ?_ h
  exact fun n e hn he => PlanSteps.preserves (planStep hn he) (step_planSteps env n e) hn

end Multimaster
