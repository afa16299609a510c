import Multimaster.Manager.LinkTimers

/-! Every event of the loop as a sequence of link steps. -/

namespace Multimaster

variable {S : Suite} {env : Env S} {k : ℕ} {A : License S}

section Turns

variable {n : Node S} {p : Ptr} (hn : Ready k n) (hf : n.records.keys.length + 1 < k)
  (hp : (n.conn p).dead = false)

include hn

lemma onConnectComplete_linkSteps (hs : (n.conn p).state = .connectingOut) :
    LinkSteps env k A n (onConnectComplete (managerSink env k) p n) := by
  unfold onConnectComplete
  extract_lets err n₁ n₂ ok n₃ n₄
  have h₁ : LinkRun env k A n n₁ := .of_quiet (.bump n)
  split_ifs
  · exact ((h₁.trans (fail_linkRun p _ _ (by decide) _)) hn).1
  · have h₂ : LinkRun env k A n₁ n₂ := .setConn (.handshaking n₁ p hs)
    have h₃ : LinkRun env k A n₂ n₃ := .of_quiet (.bump n₂)
    have h₄ : LinkRun env k A n₃ n₄ := by
      unfold n₄
      split
      · exact .of_linkCall ((respects_linkCall env k).touch n₃ p _ (by intro; rfl))
      · exact .refl n₃
    have h₅ := LinkRun.of_linkCall (A := A) ((respects_linkCall env k).sendHello p n₄)
    exact ((((h₁.trans h₂).trans h₃).trans h₄).trans h₅ hn).1

lemma recordTurn_linkSteps : LinkSteps env k A n (recordTurn (managerListener env k) p n).world := by
  unfold recordTurn
  extract_lets c clen
  split_ifs
  · exact .refl
  · exact (fail_linkRun p _ _ (by decide) _ hn).1
  · exact .refl
  · split
    · exact (fail_linkRun p _ _ (by decide) _ hn).1
    · exact .single (.input n p _ rfl)

include hf hp

lemma plaintextTurn_linkSteps (hL : ∀ f consumed,
      tryDecodeFrame (n.conn p).inBuf env.cfg.maxMessageBytes = .ok f consumed →
        Licensed A env.self n.bump p (n.conn p) f) :
    LinkSteps env k A n (plaintextTurn (managerListener env k) p n).world := by
  unfold plaintextTurn
  split
  · exact .refl
  · exact (fail_linkRun p _ _ (by decide) _ hn).1
  · next f consumed hd =>
    have h := dispatch_linkSteps env hn hf hp (hL f consumed hd) consumed .inBuf
    dsimp only
    split_ifs <;> exact h

lemma secureTurn_linkSteps (hs : (n.conn p).state = .established) :
    LinkSteps env k A n (secureTurn (managerListener env k) p n).world := by
  unfold secureTurn
  split
  · exact .refl
  · exact (fail_linkRun p _ _ (by decide) _ hn).1
  · next f consumed hd =>
    have hL : Licensed A env.self n.bump p (n.conn p) f := by
      constructor
      · intro _ _ _ h
        have := h.state
        rw [hs] at this
        cases this
      · intro d _ h
        generalize d.peerId = id at h
        cases h with
        | hello _ _ h =>
          have := h.state
          rw [hs] at this
          cases this
        | confirm _ _ h =>
          rw [hs] at h
          cases h
    have h := dispatch_linkSteps env hn hf hp hL consumed .plainBuf
    dsimp only
    split_ifs <;> exact h

end Turns

lemma shutdown_linkSteps {n : Node S} (hn : Ready k n) (hc : A.clear) :
    LinkSteps env k A n (shutdown (managerSink env k) n) := by
  unfold shutdown
  extract_lets n₁ n₂
  have h₁ : LinkRun env k A n n₁ := fun h => ⟨.single (.halt n), h.fits, h.owned⟩
  have h₂ : LinkRun env k A n₁ n₂ := by
    refine .foldl (fun n p => ?_) _ _
    split_ifs
    · exact closeGracefully_linkRun p n
    · exact .refl n
  exact ((h₁.trans h₂) hn).1.tail (.clear n₂ _ hc)

structure Event.Licensed (A : License S) (env : Env S) (n : Node S) (e : Event) : Prop where
  frame : ∀ p f consumed, e = .plaintextTurn p →
    tryDecodeFrame (n.conn p).inBuf env.cfg.maxMessageBytes = .ok f consumed →
      Multimaster.Licensed A env.self n.bump p (n.conn p) f
  clear : e = .shutdown → A.clear

lemma ready_depth {n : Node S} (h : Owned n) : Ready (depth n) n :=
  ⟨Nat.lt_add_of_pos_right (Nat.succ_pos 1), h⟩

theorem step_linkSteps {n : Node S} {e : Event} (ho : Owned n) (hL : e.Licensed A env n) :
    LinkSteps env (depth n) A n (step env n e) := by
  have hn : Ready (depth n) n := ready_depth ho
  have hf : n.records.keys.length + 1 < depth n := Nat.lt_succ_self _
  have sealed_state {p : Ptr} (h : sealedMode (n.conn p) = true) : (n.conn p).state = .established := by
    simp only [sealedMode, Bool.and_eq_true, beq_iff_eq] at h
    exact h.2
  unfold step
  split_ifs with hd
  · exact .refl
  cases e with
  | discovered id port ip => exact onDiscovered_linkSteps hn hf id port ip
  | accept addr => exact acceptConnection_linkSteps hn addr
  | hangup p => exact (fail_linkRun p _ _ (by decide) n hn).1
  | eof p => exact (fail_linkRun p _ _ (by decide) n hn).1
  | recvError p err => exact (fail_linkRun p _ _ (by decide) n hn).1
  | connected p =>
    simp only [perform]
    split_ifs with hs
    · exact onConnectComplete_linkSteps hn hs
    · exact .refl
  | writable p =>
    simp only [perform]
    split_ifs
    · exact .refl
    · exact (LinkRun.of_linkCall ((respects_linkCall env _).flushOutbound p n) hn).1
  | receive p l =>
    simp only [perform]
    split_ifs
    · exact .refl
    · exact .single (.input n p _ rfl)
  | plaintextTurn p =>
    simp only [perform]
    split_ifs
    · exact .refl
    · exact plaintextTurn_linkSteps hn hf (by simpa [Event.target] using hd)
        (fun f consumed h => hL.frame p f consumed rfl h)
  | recordTurn p =>
    simp only [perform]
    split_ifs
    · exact recordTurn_linkSteps hn
    · exact .refl
  | secureTurn p =>
    simp only [perform]
    split_ifs with hs
    · exact secureTurn_linkSteps hn hf (by simpa [Event.target] using hd) (sealed_state hs)
    · exact .refl
  | timer i =>
    simp only [perform]
    split
    · exact .refl
    · next t _ => exact timer_linkSteps hn i t.2
  | broadcast payload => exact (LinkRun.trans (.of_quiet (.bump n)) (applyRouter_chats _ _).linkRun hn).1
  | send dst payload => exact (LinkRun.trans (.of_quiet (.bump n)) (applyRouter_chats _ _).linkRun hn).1
  | shutdown => exact shutdown_linkSteps hn (hL.clear rfl)

structure Blank (n : Node S) : Prop where
  heap : n.heap = ∅
  conns : n.conns = []
  records : n.records = ∅
  estab : n.estab = ∅
  staticDialConn : n.staticDialConn = ∅
  reap : n.reap = []
  notices : n.notices = []
  neighbors : n.membership.selfNeighbors = []
  strayed : n.strayed = false
  stuck : n.stuck = false

lemma Blank.owned {n : Node S} (h : Blank n) : Owned n := by
  intro id p hp
  rw [h.estab] at hp
  cases hp

lemma started_linkSteps (env : Env S) (A : License S) :
    ∃ n, Blank n ∧ LinkSteps env (depth (Node.initial env)) A n (started env) := by
  unfold started start
  extract_lets cfg period n₁ targets n₂
  let n : Node S := { n₁ with staticTargets := n₁.staticTargets ++ targets }
  have hn : Blank n := by constructor <;> rfl
  have hr : Ready (depth (Node.initial env)) n := by
    refine ⟨?_, hn.owned⟩
    rw [hn.records]
    exact Nat.succ_pos 1
  have h : LinkRun env (depth (Node.initial env)) A n n₂ :=
    (dialSeeds_linkRun n).trans (.of_linkCall (maintainStaticPeers_linkCall (respects_linkCall env _) _))
  exact ⟨n, hn, ((h.trans (.of_quiet (.timer _ _ _))) hr).1⟩

end Multimaster
