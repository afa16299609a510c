import Multimaster.Connection.Endpoint

/-! What can happen to a secured connection, as a sequence of pulses. -/

namespace Multimaster

variable {S : Suite}

def PeerConnection.standing (c : PeerConnection S) : PeerConnection S :=
  { c with
    outBuf := [], written := [], sent := [], lastSend := 0, sess := none, wantWrite := false
    registered := false, interestIn := false, interestOut := false, overflowed := false
    inBuf := [], plainBuf := [], plainRead := 0, opened := [], heard := [], lastRecv := 0, failure := none }

def PeerConnection.heardFrame (src : Source) (f : Frame S) (c : PeerConnection S) : PeerConnection S :=
  { c with dispatched := c.dispatched ++ [(src, f)] }

def PeerConnection.named (h : Hello S) (c : PeerConnection S) : PeerConnection S :=
  { c with peerId := h.nodeId, peerListenPort := h.tcpListenPort, peerNonce := h.nonce }

def PeerConnection.greeted (own : LocalIdentity S) (h : Hello S) (r : HandshakeResult S)
    (c : PeerConnection S) : PeerConnection S :=
  { c with
    peerId := h.nodeId
    peerListenPort := h.tcpListenPort
    peerNonce := h.nonce
    myConfirmTag := r.myConfirmTag
    expectedPeerTag := r.expectedPeerTag
    peerHello := h
    useIdentity := own.hasIdentity && h.hasIdentity
    myIdSig :=
      if own.hasIdentity && h.hasIdentity then
        S.sign (idTranscript c.ephKeys.pk h.ephPubKey own.nodeName) own.idKeys.sk
      else c.myIdSig
    state := .awaitingConfirm }

def Passive (c : PeerConnection S) : Frame S → Prop
  | .hello _ _ => c.state ≠ .handshaking
  | .authConfirm _ _ => False
  | _ => True

inductive Pulse (O : Owner S) (A : Frame S → Prop) (w v : Endpoint S) : Prop where
  | idle (hc : v.conn.standing = w.conn.standing) (hs : v.conn.sent = w.conn.sent) (ht : v.told = w.told)
  | send (x : Sent S) (hx : A x.frame) (hc : v.conn.standing = w.conn.standing)
      (hs : v.conn.sent = w.conn.sent ++ [x]) (ht : v.told = w.told)
  | vouch (hst : w.conn.state = .awaitingConfirm) (hc : v.conn.standing = w.conn.standing)
      (hs : v.conn.sent = w.conn.sent ++ [.plain (.authConfirm w.conn.myConfirmTag
        (if w.conn.useIdentity then some w.conn.myIdSig else none))]) (ht : v.told = w.told)
  | die (hc : v.conn.standing = w.conn.killed.standing) (hs : v.conn.sent = w.conn.sent)
      (ht : v.told = w.told)
  | hear (src : Source) (f : Frame S) (hf : Passive w.conn f)
      (hc : v.conn.standing = (w.conn.heardFrame src f).standing) (hs : v.conn.sent = w.conn.sent)
      (ht : v.told = w.told)
  | refuse (src : Source) (f : Frame S) (d : PeerConnection S)
      (hd : d = w.conn ∨ w.conn.state = .handshaking ∧ ∃ h, d = w.conn.named h)
      (hc : v.conn.standing = (d.heardFrame src f).killed.standing) (hs : v.conn.sent = w.conn.sent)
      (ht : v.told = w.told)
  | accept (src : Source) (ack : Bool) (h : Hello S) (r : HandshakeResult S)
      (hst : w.conn.state = .handshaking)
      (hid : (O.env.self.hasIdentity && O.env.cfg.requireIdentity && !h.hasIdentity) = false)
      (hr : doHandshake w.conn.ephKeys h.ephPubKey O.env.self.groupKey O.env.self.groupName = some r)
      (hc : v.conn.standing = ((w.conn.heardFrame src (.hello ack h)).greeted O.env.self h r).standing)
      (hs : v.conn.sent = w.conn.sent) (ht : v.told = w.told)
  | confirm (src : Source) (tag : S.Block 32) (sig : Option (S.Block 64))
      (hst : w.conn.state = .awaitingConfirm) (htag : tag = w.conn.expectedPeerTag)
      (hv : (if w.conn.useIdentity then identityFailure O.env.self w.conn sig else none) = none)
      (hc : v.conn.standing =
        { w.conn.heardFrame src (.authConfirm tag sig) with state := .established }.standing)
      (hs : v.conn.sent = w.conn.sent) (ht : v.told = w.told ++ [w.conn.peerHello])

abbrev Pulses (O : Owner S) (A : Frame S → Prop) : Endpoint S → Endpoint S → Prop :=
  Relation.ReflTransGen (Pulse O A)

structure Sends (O : Owner S) (A : Frame S → Prop) : Prop where
  goodbye : A .goodbye
  acts : ∀ n f, .send f ∈ O.acts n → A f

variable {O : Owner S} {A : Frame S → Prop}

lemma standing_field {c d : PeerConnection S} (h : d.standing = c.standing) {α : Type}
    (f : PeerConnection S → α) (hf : ∀ c, f c.standing = f c) : f d = f c := by
  rw [← hf d, ← hf c, h]

section Output

lemma markDead_pulses (w : Endpoint S) : Pulses O A w (markDead (ownerSink O) 0 w) := by
  unfold markDead
  split_ifs
  · exact .refl
  · exact .single (.die rfl rfl rfl)

lemma fail_pulses (cat : ErrorCategory) (err : ℤ) (what : String) (w : Endpoint S) :
    Pulses O A w (fail (ownerSink O) 0 cat err what w) := by
  unfold fail
  extract_lets c w₁ w₂
  have h₁ : Pulse O A w w₂ := by
    unfold w₂
    split <;> exact .idle rfl rfl rfl
  split_ifs
  · exact .refl
  · exact (Relation.ReflTransGen.single h₁).trans (markDead_pulses w₂)

lemma updateEpoll_pulses (w : Endpoint S) : Pulses O A w (updateEpoll (ownerSink O) 0 w) := by
  unfold updateEpoll
  extract_lets c needWrite
  split_ifs
  iterate 2 exact .refl
  iterate 2 exact .single (.idle rfl rfl rfl)

lemma flushOutbound_pulses (w : Endpoint S) : Pulses O A w (flushOutbound (ownerSink O) 0 w) := by
  unfold flushOutbound
  extract_lets r w₁
  have h₁ : Pulses O A w w₁ := .single (.idle rfl rfl rfl)
  split
  · exact h₁.trans (fail_pulses _ _ _ w₁)
  · exact h₁.trans (updateEpoll_pulses w₁)

lemma transmit_pulses {rec : Bytes} {x : Sent S} (hx : A x.frame) (w : Endpoint S) :
    Pulses O A w (transmit (ownerSink O) 0 rec x w) := by
  unfold transmit
  extract_lets now w₁
  have h₁ : Pulses O A w w₁ := .single (.send x hx rfl rfl rfl)
  exact h₁.trans (flushOutbound_pulses w₁)

lemma enqueue_pulses {f : Frame S} (hf : A f) (w : Endpoint S) :
    Pulses O A w (enqueue (ownerSink O) 0 f w) := by
  unfold enqueue
  extract_lets c r w₁ w₂
  have hx : A r.2.1.frame := by
    rw [sealFrame_frame]
    exact hf
  have h₁ : Pulses O A w w₁ := .single (.idle rfl rfl rfl)
  have h₂ : Pulses O A w w₂ := h₁.tail (.idle rfl rfl rfl)
  split_ifs
  · exact .refl
  · split
    · exact h₂.trans (fail_pulses _ _ _ w₂)
    · exact h₂.tail (.idle rfl rfl rfl)
    · have h₃ : Pulses O A w _ := h₂.tail (.idle (w := w₂) (v := { w₂ with conn := { w₂.conn with outBuf := [] } })
        rfl rfl rfl)
      exact h₃.trans (transmit_pulses hx _)
  · exact h₁.trans (transmit_pulses hx w₁)

lemma sendAuthConfirm_pulses {w : Endpoint S} (hst : w.conn.state = .awaitingConfirm) :
    Pulses O A w (sendAuthConfirm (ownerSink O) 0 w) := by
  unfold sendAuthConfirm transmit
  extract_lets c f now w₁
  have h₁ : Pulses O A w w₁ := .single (.vouch hst rfl rfl rfl)
  exact h₁.trans (flushOutbound_pulses w₁)

variable (hA : Sends O A)

include hA

lemma act_pulses {a : Act S} (ha : ∀ f, a = .send f → A f) (w : Endpoint S) : Pulses O A w (act O w a) := by
  cases a with
  | send f => exact enqueue_pulses (ha f rfl) w
  | close =>
    unfold act closeGracefully
    split_ifs
    · exact .refl
    · exact (enqueue_pulses hA.goodbye w).trans (markDead_pulses _)

lemma acts_pulses {l : List (Act S)} (hl : ∀ f, .send f ∈ l → A f) (w : Endpoint S) :
    Pulses O A w (l.foldl (act O) w) := by
  induction l generalizing w with
  | nil => exact .refl
  | cons a l ih =>
    have ha : ∀ f, a = .send f → A f := fun f h => hl f (h ▸ List.mem_cons_self)
    exact (act_pulses hA ha w).trans (ih (fun f hf => hl f (List.mem_cons_of_mem a hf)) _)

lemma respond_pulses (w : Endpoint S) : Pulses O A w (respond O w) := by
  have h₁ : Pulses O A w { w with pos := w.pos + 1 } := .single (.idle rfl rfl rfl)
  exact h₁.trans (acts_pulses hA (hA.acts w.pos) _)

end Output

lemma fail_alive (cat : ErrorCategory) (err : ℤ) (what : String) {w : Endpoint S}
    (hd : w.conn.dead = false) :
    (fail (ownerSink O) 0 cat err what w).conn.standing = w.conn.killed.standing ∧
      (fail (ownerSink O) 0 cat err what w).conn.sent = w.conn.sent ∧
      (fail (ownerSink O) 0 cat err what w).told = w.told := by
  unfold fail markDead
  extract_lets c w₁ w₂
  have h₂ : w₂ = w₁ := by
    unfold w₂
    split <;> rfl
  have hc : ¬ c.dead = true := by
    rw [show c.dead = w.conn.dead from rfl, hd]
    exact Bool.false_ne_true
  have hw₁ : ¬ ((ownerSink O).conn w₁ 0).dead = true := hc
  rw [if_neg hc, h₂, if_neg hw₁]
  exact ⟨rfl, rfl, rfl⟩

section Input

variable (hA : Sends O A) {w : Endpoint S} {f : Frame S} (src : Source) (consumed : ℕ)

def Endpoint.stamped (O : Owner S) (src : Source) (f : Frame S) (w : Endpoint S) : Endpoint S :=
  { w with
    conn := { w.conn with
      lastRecv := O.env.oracle.clock w.pos, dispatched := w.conn.dispatched ++ [(src, f)] }
    pos := w.pos + 1 }

lemma consume_standing (c : PeerConnection S) : (consume src consumed c).standing = c.standing := by
  cases src <;> rfl

lemma consume_sent (c : PeerConnection S) : (consume src consumed c).sent = c.sent := by
  cases src <;> rfl

lemma consume_pulse (w : Endpoint S) :
    Pulse O A w { w with conn := consume src consumed w.conn } :=
  .idle (consume_standing src consumed _) (consume_sent src consumed _) rfl

lemma heard_pulse (hf : Passive w.conn f) : Pulse O A w (w.stamped O src f) :=
  .hear src f hf rfl rfl rfl

omit hA in
lemma refuse_pulse {d : PeerConnection S}
    (hdw : d = w.conn ∨ w.conn.state = .handshaking ∧ ∃ h, d = w.conn.named h) {v : Endpoint S}
    (hv : v.conn.standing = (d.heardFrame src f).standing) (hs : v.conn.sent = w.conn.sent)
    (ht : v.told = w.told) (hd : v.conn.dead = false) (cat : ErrorCategory) (err : ℤ) (what : String) :
    Pulses O A w (fail (ownerSink O) 0 cat err what v) := by
  obtain ⟨h₁, h₂, h₃⟩ := fail_alive (O := O) (w := v) cat err what hd
  have hk : v.conn.killed.standing = (d.heardFrame src f).killed.standing :=
    congrArg (fun c : PeerConnection S => { c with dead := true, state := .dead }) hv
  exact .single (.refuse src f d hdw (h₁.trans hk) (h₂.trans hs) (h₃.trans ht))

omit hA in
lemma handleHello_pulses {ack : Bool} {h : Hello S} (hd : w.conn.dead = false)
    (hsec : w.conn.secure = true) : Pulses O A w
      (handleHello (ownerListener O) 0 h consumed src (w.stamped O src (.hello ack h))).2 := by
  unfold handleHello
  extract_lets own c w₁
  have hcs : c.state = w.conn.state := rfl
  have hsec' : c.secure = true := hsec
  have hc₁ : w₁.conn.standing = ((w.conn.named h).heardFrame src (.hello ack h)).standing :=
    consume_standing src consumed _
  have hs₁ : w₁.conn.sent = w.conn.sent := consume_sent src consumed _
  have hd₁ : w₁.conn.dead = false :=
    (standing_field hc₁ PeerConnection.dead fun _ => rfl).trans hd
  split_ifs with hst hver hmode hplain hid
  · refine .tail (.single (heard_pulse src (f := .hello ack h) ?_)) (consume_pulse src consumed _)
    rwa [hcs] at hst
  · exact refuse_pulse src (v := w.stamped O src (.hello ack h)) (.inl rfl) rfl rfl rfl hd _ _ _
  · exact refuse_pulse src (v := w.stamped O src (.hello ack h)) (.inl rfl) rfl rfl rfl hd _ _ _
  · rw [hsec'] at hplain
    cases hplain
  all_goals
    rw [not_not, hcs] at hst
  · exact refuse_pulse src (.inr ⟨hst, h, rfl⟩) hc₁ hs₁ rfl hd₁ _ _ _
  · split
    · exact refuse_pulse src (.inr ⟨hst, h, rfl⟩) hc₁ hs₁ rfl hd₁ _ _ _
    · rename_i r hr
      unfold awaitConfirm
      extract_lets useIdentity w₂ w₃
      have hw₂ : Pulse O A w w₂ := by
        refine .accept src ack h r hst (Bool.eq_false_of_not_eq_true hid) hr ?_ hs₁ rfl
        cases src <;> rfl
      exact (Relation.ReflTransGen.single hw₂).trans (sendAuthConfirm_pulses rfl)

include hA

lemma handleAuthConfirm_pulses {tag : S.Block 32} {sig : Option (S.Block 64)} (hd : w.conn.dead = false)
    (hsec : w.conn.secure = true) : Pulses O A w
      (handleAuthConfirm (ownerListener O) 0 tag sig consumed src
        (w.stamped O src (.authConfirm tag sig))).2 := by
  unfold handleAuthConfirm
  extract_lets c w₁
  have hc₁ : w₁.conn.standing = (w.conn.heardFrame src (.authConfirm tag sig)).standing :=
    consume_standing src consumed _
  have hs₁ : w₁.conn.sent = w.conn.sent := consume_sent src consumed _
  have hd₁ : w₁.conn.dead = false :=
    (standing_field hc₁ PeerConnection.dead fun _ => rfl).trans hd
  by_cases hst : (!c.secure || c.state ≠ .awaitingConfirm) = true
  · rw [if_pos hst]
    exact refuse_pulse src (v := w.stamped O src (.authConfirm tag sig)) (.inl rfl) rfl rfl rfl hd _ _ _
  rw [if_neg hst]
  by_cases htag : tag ≠ c.expectedPeerTag
  · rw [if_pos htag]
    exact refuse_pulse src (.inl rfl) hc₁ hs₁ rfl hd₁ _ _ _
  · rw [if_neg htag]
    split
    · exact refuse_pulse src (.inl rfl) hc₁ hs₁ rfl hd₁ _ _ _
    · rename_i hv
      have hwait : w.conn.state = .awaitingConfirm := by
        simpa [show c.secure = true from hsec, show c.state = w.conn.state from rfl] using hst
      let w₂ : Endpoint S := { w₁ with
        conn := { w₁.conn with state := .established }, told := w₁.told ++ [c.peerHello] }
      have hw₂ : Pulse O A w w₂ := by
        refine .confirm src tag sig hwait (not_not.mp htag) hv ?_ hs₁ rfl
        cases src <;> rfl
      exact (Relation.ReflTransGen.single hw₂).trans (respond_pulses hA w₂)

lemma dispatch_pulses (f : Frame S) (hd : w.conn.dead = false) (hsec : w.conn.secure = true) :
    Pulses O A w (dispatch (ownerListener O) 0 f consumed src w).2 := by
  have heard (hf : Passive w.conn f) {v : Endpoint S} (hv : Pulses O A (w.stamped O src f) v) :
      Pulses O A w v := .head (heard_pulse src hf) hv
  have eat (v : Endpoint S) := consume_pulse (O := O) (A := A) src consumed v
  cases f with
  | hello ack h => exact handleHello_pulses src consumed hd hsec
  | authConfirm tag sig => exact handleAuthConfirm_pulses hA src consumed hd hsec
  | heartbeat => exact heard trivial (.single (eat _))
  | goodbye => exact heard trivial (.head (eat _) (fail_pulses _ _ _ _))
  | data d =>
    refine heard trivial ?_
    simp only [dispatch]
    split_ifs
    · exact fail_pulses _ _ _ _
    · exact .tail (respond_pulses hA _) (eat _)
    · exact respond_pulses hA _
  | membership m =>
    refine heard trivial ?_
    simp only [dispatch]
    split_ifs
    · exact fail_pulses _ _ _ _
    · exact .head (eat _) (respond_pulses hA _)
  | identity r =>
    refine heard trivial ?_
    simp only [dispatch]
    split_ifs
    · exact fail_pulses _ _ _ _
    · exact .head (eat _) (respond_pulses hA _)

end Input

end Multimaster
