import Multimaster.Manager.Guards

/-! The calls of a connection and of the manager keep what is queued guarded. -/

namespace Multimaster

variable {S : Suite}

section Output

variable {env : Env S} {closed : Ptr → Node S → Node S} (hC : ∀ p n, Guards n (closed p n))

lemma updateEpoll_guards (p : Ptr) (n : Node S) : Guards n (updateEpoll (nodeSink env closed) p n) := by
  unfold updateEpoll
  extract_lets c needWrite
  split_ifs
  · exact .refl n
  · exact .refl n
  · exact (Guards.modify p (by intro; rfl) n.bump).after rfl rfl
  · exact .of_fields rfl rfl

include hC

lemma markDead_guards (p : Ptr) (n : Node S) : Guards n (markDead (nodeSink env closed) p n) := by
  unfold markDead
  split_ifs
  · exact .refl n
  · exact .trans (.set Guarded.killed (.killed _)) (hC p _)

lemma fail_guards (p : Ptr) (cat : ErrorCategory) (err : ℤ) (what : String) (n : Node S) :
    Guards n (fail (nodeSink env closed) p cat err what n) := by
  unfold fail
  extract_lets c n₁ n₂
  have h₁ : Guards n n₁ := .modify p (by intro; rfl) n
  have h₂ : Guards n₁ n₂ := by
    unfold n₂
    split <;> exact .of_fields rfl rfl
  split_ifs
  · exact .refl n
  · exact (h₁.trans h₂).trans (markDead_guards hC p n₂)

lemma flushOutbound_guards (p : Ptr) (n : Node S) :
    Guards n (flushOutbound (nodeSink env closed) p n) := by
  unfold flushOutbound
  extract_lets r m
  have hm : Guards n m :=
    (Guards.modify p (by intro; rfl) n.bump).after rfl rfl
  split
  · exact hm.trans (fail_guards hC p _ _ _ m)
  · exact hm.trans (updateEpoll_guards p m)

lemma transmit_guards (p : Ptr) (rec : Bytes) {item : Sent S}
    (hi : ∀ f, item = .plain f → f.inClear = true) (n : Node S) :
    Guards n (transmit (nodeSink env closed) p rec item n) := by
  unfold transmit
  extract_lets now m
  have hm : Guards n.bump m := by
    refine .set (fun hg => ⟨hg.secure, hg.keyed, fun f hf => ?_⟩) ⟨id, .inr, rfl⟩
    rcases List.mem_append.mp hf with hf | hf
    · exact hg.sent f hf
    · exact hi f (List.mem_singleton.mp hf).symm
  exact (hm.trans (flushOutbound_guards hC p m)).after rfl rfl

lemma sendHello_guards (p : Ptr) (n : Node S) : Guards n (sendHello (nodeSink env closed) p n) := by
  unfold sendHello
  extract_lets self c ephKeys m h
  have hm : Guards n m :=
    (Guards.modify p (by intro; rfl) n.bump).after rfl rfl
  refine hm.trans (transmit_guards hC p _ ?_ m)
  rintro f ⟨⟩
  rfl

lemma sendAuthConfirm_guards (p : Ptr) (n : Node S) :
    Guards n (sendAuthConfirm (nodeSink env closed) p n) := by
  refine transmit_guards hC p _ ?_ n
  rintro f ⟨⟩
  rfl

lemma enqueue_guards {p : Ptr} {f : Frame S} {n : Node S}
    (hf : f.inClear = true ∨ ∀ c, n.heap.get? p = some c → Sealable c) :
    Guards n (enqueue (nodeSink env closed) p f n) := by
  intro hn
  unfold enqueue
  extract_lets c r n₁ n₂
  split_ifs with hd hover
  · exact Guards.refl n hn
  all_goals
    have hp : n.heap.get? p = some c := Node.get?_of_alive (eq_false_of_ne_true hd)
    have hst : f.inClear = true ∨ c.state = .established :=
      hf.imp_right fun h => (h c hp).resolve_left hd
    have hi (g : Frame S) (hg : r.2.1 = .plain g) : g.inClear = true :=
      sealFrame_plain (hn.conn p c hp) hst hg
    have h₁ : Guards n n₁ := by
      refine .set (fun hg => ⟨hg.secure, fun hs => ?_, hg.sent⟩) ⟨id, .inr, rfl⟩
      exact (sealFrame_isSome c f).trans (hg.keyed hs)
  · have h₂ : Guards n n₂ := h₁.trans (.modify p (by intro; rfl) n₁)
    split
    · exact h₂.trans (fail_guards hC p _ _ _ n₂) hn
    · exact h₂.trans (.of_fields rfl rfl) hn
    · exact h₂.trans (.trans (.modify p (by intro; rfl) n₂)
        (transmit_guards hC p _ hi _)) hn
  · exact h₁.trans (transmit_guards hC p _ hi n₁) hn

lemma maybeHeartbeat_guards (p : Ptr) (now interval : ℤ) (n : Node S) :
    Guards n (maybeHeartbeat (nodeSink env closed) p now interval n) := by
  unfold maybeHeartbeat
  extract_lets c
  split_ifs with hc
  · exact .refl n
  · refine enqueue_guards hC (.inr fun d hd => .inr ?_)
    have : c = d := Node.conn_of_get? hd
    rw [← this]
    simpa using (not_or.mp hc).1
  · exact .refl n

lemma closeGracefully_guards (p : Ptr) (n : Node S) :
    Guards n (closeGracefully (nodeSink env closed) p n) := by
  unfold closeGracefully
  split_ifs
  · exact .refl n
  · exact (enqueue_guards hC (.inl rfl)).trans (markDead_guards hC p _)

lemma startConnect_guards (p : Ptr) (n : Node S) :
    Guards n (startConnect (nodeSink env closed) p n).2 := by
  unfold startConnect
  dsimp only
  have hb : Guards n ((nodeSink env closed).bump n) := .of_fields rfl rfl
  split
  · exact hb.trans (fail_guards hC p _ _ _ _)
  · exact hb.trans (fail_guards hC p _ _ _ _)
  · exact hb.trans (fail_guards hC p _ _ _ _)
  · dsimp only
    exact hb.trans (.modify p (by intro; rfl) _)

lemma startInbound_guards (p : Ptr) (n : Node S) :
    Guards n (startInbound (nodeSink env closed) p n) := by
  unfold startInbound
  extract_lets ok n₁ n₂
  have h₂ : Guards n₁ n₂ := by
    unfold n₂
    split
    · exact .modify p (by intro; rfl) _
    · exact .refl n₁
  exact (h₂.trans (sendHello_guards hC p n₂)).after rfl rfl

lemma onConnectComplete_guards {p : Ptr} {n : Node S} (hs : (n.conn p).state = .connectingOut) :
    Guards n (onConnectComplete (nodeSink env closed) p n) := by
  unfold onConnectComplete
  extract_lets err n₁ n₂ ok n₃ n₄
  have h₁ : Guards n n₁ := .of_fields rfl rfl
  have h₂ : Guards n₁ n₂ := by
    refine .set (fun hg => ⟨hg.secure, fun h => h.elim ConnState.noConfusion ConnState.noConfusion, hg.sent⟩)
      ⟨id, fun h => ?_, rfl⟩
    rw [show (n₁.conn p).state = _ from hs] at h
    cases h
  have h₃ : Guards n₂ n₃ := .of_fields rfl rfl
  have h₄ : Guards n₃ n₄ := by
    unfold n₄
    split
    · exact .modify p (by intro; rfl) _
    · exact .refl n₃
  split_ifs
  · exact h₁.trans (fail_guards hC p _ _ _ _)
  · exact ((h₁.trans h₂).trans (h₃.trans h₄)).trans (sendHello_guards hC p n₄)

lemma sendEach_guards (f : Frame S) (ps : List Ptr) (n : Node S)
    (hp : ∀ p ∈ ps, ∃ c, n.heap.get? p = some c ∧ Sealable c) :
    Guards n (ps.foldl (fun n p => sendRaw (nodeSink env closed) p f (n.deref [p])) n) := by
  intro hn
  induction ps generalizing n with
  | nil => exact Guards.refl n hn
  | cons p ps ih =>
    have hs (c : PeerConnection S) (hc : (n.deref [p]).heap.get? p = some c) : Sealable c := by
      obtain ⟨d, hd, hds⟩ := hp p List.mem_cons_self
      cases hd.symm.trans hc
      exact hds
    have h : Guards n (sendRaw (nodeSink env closed) p f (n.deref [p])) :=
      (enqueue_guards hC (.inr hs)).after rfl rfl
    obtain ⟨hm, hnm⟩ := h hn
    -- the other targets are still there, and still sealable
    have hps : ∀ q ∈ ps, ∃ c, (sendRaw (nodeSink env closed) p f (n.deref [p])).heap.get? q = some c ∧
        Sealable c := by
      intro q hq
      obtain ⟨c, hc, hcs⟩ := hp q (List.mem_cons_of_mem p hq)
      have hq := hnm q
      rw [hc] at hq
      generalize Dict.get? _ q = d at hq ⊢
      cases hq with
      | kept hcd => exact ⟨_, rfl, hcd.sealable hcs⟩
    obtain ⟨ho, hmo⟩ := ih _ hps hm
    exact ⟨ho, fun q => (hnm q).trans (hmo q)⟩

lemma forwardExcept_guards (f : Frame S) (exceptFd : Option Ptr) (n : Node S) :
    Guards n (forwardExcept (nodeSink env closed) f exceptFd n) := by
  intro hn
  unfold forwardExcept
  refine Guards.after (n := n) (sendEach_guards hC f _ _ ?_) rfl rfl hn
  intro p hp
  obtain ⟨e, he, hep⟩ := List.mem_filterMap.mp hp
  have he' : e ∈ n.estab.toList := (mem_reorder _ _ _).mp he
  split_ifs at hep
  cases hep
  exact hn.link e.1 e.2 (Dict.mem_toList.mp he')

lemma forwardTo_guards (dst : PeerId) (f : Frame S) (n : Node S) :
    Guards n (forwardTo (nodeSink env closed) dst f n).2 := by
  intro hn
  unfold forwardTo
  split
  · exact Guards.refl n hn
  · next p hp =>
    refine (enqueue_guards (n := n.deref [p]) hC (.inr ?_)).after rfl rfl hn
    intro c hc
    obtain ⟨d, hd, hs⟩ := hn.link dst p hp
    cases hd.symm.trans hc
    exact hs

lemma applyMembership_guards (r : Membership × List Notice × Option (Flood S)) (n : Node S) :
    Guards n (applyMembership (nodeSink env closed) r n) := by
  unfold applyMembership
  dsimp only
  split
  · exact .of_fields rfl rfl
  · exact (forwardExcept_guards hC _ _ _).after rfl rfl

lemma updateLocalMembership_guards (n : Node S) :
    Guards n (updateLocalMembership (nodeSink env closed) n) :=
  (applyMembership_guards hC _ n.bump).after rfl rfl

omit hC in
lemma newOutbound_guards (hsec : env.self.secure = true) (addr : Addr) (n : Node S) :
    Guards n (newOutbound env addr n).2 := by
  refine .alloc (Node.freshPtr_free env n) ⟨hsec, fun h => ?_, fun f hf => ?_⟩ rfl rfl rfl
  · exact h.elim ConnState.noConfusion ConnState.noConfusion
  · cases hf

section Dialing

variable (hsec : env.self.secure = true)

include hsec

lemma startStaticDial_guards (i : ℕ) (t : StaticTarget) (n : Node S) :
    Guards n (startStaticDial (nodeSink env closed) i t n) := by
  unfold startStaticDial
  split
  · exact .of_fields rfl rfl
  · next addr _ =>
    have hb : Guards n n.bump := .of_fields rfl rfl
    have ho : Guards n.bump (openStatic env i t addr n.bump).2 :=
      (newOutbound_guards hsec addr n.bump).trans (.of_fields rfl rfl)
    exact (hb.trans ho).trans (startConnect_guards hC _ _)

lemma maintainTarget_guards (now : ℤ) (n : Node S) (i : ℕ) :
    Guards n (maintainTarget (nodeSink env closed) now n i) := by
  unfold maintainTarget
  split
  · exact .refl n
  · dsimp only
    split_ifs
    · exact .of_fields rfl rfl
    · exact .refl n
    · exact .refl n
    · exact (startStaticDial_guards hC hsec _ _ _).after rfl rfl

lemma maintainStaticPeers_guards (n : Node S) :
    Guards n (maintainStaticPeers (nodeSink env closed) n) := by
  unfold maintainStaticPeers
  split_ifs
  · exact .refl n
  · exact (Guards.foldl (maintainTarget_guards hC hsec _) _ n.bump).after rfl rfl

lemma closeRecord_guards (p : Ptr) (id : PeerId) (n : Node S) :
    Guards n (closeRecord (nodeSink env closed) p id n) := by
  unfold closeRecord
  split
  · exact .refl n
  · next r _ =>
    dsimp only
    have h : Guards n (releaseRecord (nodeSink env closed) id r n) := by
      unfold releaseRecord
      extract_lets m
      split_ifs
      · exact (updateLocalMembership_guards hC _).after rfl rfl
      · exact .of_fields rfl rfl
    split_ifs
    · exact h.trans (maintainStaticPeers_guards hC hsec _)
    · refine h.trans ?_
      unfold scheduleReconnect
      split
      · exact .refl _
      · dsimp only
        split_ifs
        · exact .refl _
        · exact .refl _
        · exact .of_fields rfl rfl
    · exact .refl n

lemma onPeerClosed_guards (p : Ptr) (n : Node S) :
    Guards n (onPeerClosed (nodeSink env closed) p n) := by
  unfold onPeerClosed
  extract_lets n₁ owner n₂ n₃
  have h₁ : Guards n n₁ := by
    refine .detach (fun id q hq => ?_) rfl
    have : n₁.estab = if _ then n.estab.erase _ else n.estab := rfl
    rw [this] at hq
    split_ifs at hq
    · exact (Dict.get?_of_erase hq).2
    · exact hq
  have h₂ : Guards n₁ n₂ := .of_fields rfl rfl
  have h₃ : Guards n₂ n₃ := by
    unfold n₃
    cases owner with
    | none => exact .refl n₂
    | some id => exact closeRecord_guards hC hsec p id n₂
  refine ((h₁.trans h₂).trans h₃).trans ?_
  unfold scheduleReap
  split <;> exact .of_fields rfl rfl

end Dialing

end Output

lemma closing_guards {env : Env S} (hsec : env.self.secure = true) (k : ℕ) (p : Ptr) (n : Node S) :
    Guards n (closing env k p n) := by
  induction k generalizing p n with
  | zero => exact .of_fields rfl rfl
  | succ k ih => exact onPeerClosed_guards ih hsec p n

end Multimaster
