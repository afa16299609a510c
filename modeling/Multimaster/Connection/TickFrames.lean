import Multimaster.Connection.Ticks

/-! The handling of a frame as a sequence of ticks. -/

namespace Multimaster

variable {S : Suite}
variable {O : Owner S} {A : ConnState → Frame S → Prop} {due : Due S}

section Input

variable {w : Endpoint S} {f : Frame S} {src : Source} {n : ℕ}

structure Offers (O : Owner S) (w : Endpoint S) (src : Source) (f : Frame S) (n : ℕ) : Prop where
  alive : w.conn.dead = false
  mode : sealedMode w.conn = decide (src = .plainBuf)
  frame : tryDecodeFrame (w.conn.buffer src) O.env.cfg.maxMessageBytes = .ok f n

structure Lands (O : Owner S) (A : ConnState → Frame S → Prop) (x : Moment S) (r : Bool × Endpoint S) :
    Prop where
  ticks : Ticks O A x (none, r.2)
  alive : r.1 = !r.2.conn.dead

lemma Offers.stamp (h : Offers O w src f n) : Ticks O A (none, w) (some (src, f, n), w.stamped O src f) :=
  .single (.stamp src f n h.alive h.mode h.frame rfl rfl)

lemma Handling.dead {c d : PeerConnection S} (h : Handling due c d) : d.dead = c.dead := by
  rcases h with rfl | ⟨src, f, n, -, rfl | ⟨-, x, rfl⟩⟩
  · rfl
  · exact consume_dead src n c
  · exact consume_dead src n _

lemma Lands.blamed {v : Endpoint S} {d : PeerConnection S} (hv : Ticks O A (none, w) (due, v))
    (he : Handling due v.conn d) (hdead : d.dead = false) (hb : Blame O due v.conn) (cat : ErrorCategory)
    (err : ℤ) (what : String) :
    Lands O A (none, w) (false, fail (ownerSink O) 0 cat err what { v with conn := d }) := by
  have hf : Ticks O A (none, w) (due, { v with conn := d.failed cat err what }) :=
    hv.tail (.blamed d (he.dead ▸ hdead) he cat err what hb rfl rfl)
  rw [fail_eq (w := { v with conn := d }) hdead]
  exact ⟨hf.tail (.lapse rfl), rfl⟩

lemma Lands.ended {v : Endpoint S} (hv : Ticks O A (none, w) (due, v)) (hd : v.conn.dead = true) :
    Lands O A (none, w) (false, v) :=
  ⟨hv.tail (.lapse hd), by rw [hd]; rfl⟩

lemma Lands.checked {v : Endpoint S} (hv : Ticks O A (none, w) (none, v)) :
    Lands O A (none, w) (!v.conn.dead, v) := ⟨hv, rfl⟩

lemma Offers.eat (h : Offers O w src f n) (hf : Passive w.conn f) :
    Ticks O A (none, w) (none, { w.stamped O src f with conn := consume src n (w.stamped O src f).conn }) :=
  h.stamp.tail (.eat src f n h.alive hf rfl rfl)

lemma Offers.eaten (h : Offers O w src f n) (hf : Passive w.conn f) : Lands O A (none, w)
    (true, { w.stamped O src f with conn := consume src n (w.stamped O src f).conn }) := by
  have hd : (consume src n (w.stamped O src f).conn).dead = false := (consume_dead src n _).trans h.alive
  refine ⟨h.eat hf, ?_⟩
  rw [hd]
  rfl

variable (hA : Utters O A)

include hA

lemma handleHello_ticks {ack : Bool} {x : Hello S} (h : Offers O w src (.hello ack x) n) :
    Lands O A (none, w)
      (handleHello (ownerListener O) 0 x n src (w.stamped O src (.hello ack x))) := by
  unfold handleHello
  extract_lets own c w₁
  have blame (why : (x.protocolVersion ≠ own.protocolVersion ∨ x.groupName ≠ own.groupName) ∨
      x.secure ≠ c.secure ∨ (own.hasIdentity && O.env.cfg.requireIdentity && !x.hasIdentity) = true ∨
      doHandshake c.ephKeys x.ephPubKey own.groupKey own.groupName = none) (hst : c.state = .handshaking) :
      Blame O (some (src, .hello ack x, n)) (w.stamped O src (.hello ack x)).conn :=
    .hello src ack x n rfl hst why
  have named (hst : c.state = .handshaking) :
      Handling (some (src, .hello ack x, n)) (w.stamped O src (.hello ack x)).conn w₁.conn :=
    .inr ⟨src, _, n, rfl, .inr ⟨hst, x, rfl⟩⟩
  have hdead : w₁.conn.dead = false := (consume_dead src n _).trans h.alive
  split_ifs with hst hver hmode hplain hid
  · exact h.eaten hst
  · exact .blamed h.stamp (.inl rfl) h.alive (blame (.inl hver) (not_not.mp hst)) _ _ _
  · exact .blamed h.stamp (.inl rfl) h.alive (blame (.inr (.inl hmode)) (not_not.mp hst)) _ _ _
  · have hplain : c.secure = false := by simpa using hplain
    let w₂ : Endpoint S := { w₁ with
      conn := { w₁.conn with state := .established }, told := w₁.told ++ [x] }
    have hw₂ : Ticks O A (none, w) (none, w₂) :=
      h.stamp.tail (.welcome (w := w.stamped O src (.hello ack x)) src n ack x h.alive (not_not.mp hst)
        hplain rfl rfl)
    exact .checked (hw₂.trans (respond_ticks hA (.inl rfl)))
  · exact .blamed h.stamp (named (not_not.mp hst)) hdead (blame (.inr (.inr (.inl hid))) (not_not.mp hst)) _ _ _
  · have hst : c.state = .handshaking := not_not.mp hst
    split
    · rename_i hr
      exact .blamed h.stamp (named hst) hdead (blame (.inr (.inr (.inr hr))) hst) _ _ _
    · rename_i r hr
      unfold awaitConfirm sendAuthConfirm transmit
      extract_lets useIdentity w₂ c₂ g now w₃ w₄
      have hg : g = .authConfirm r.myConfirmTag (if own.hasIdentity && x.hasIdentity then
          some (S.sign (idTranscript c.ephKeys.pk x.ephPubKey own.nodeName) own.idKeys.sk) else none) := by
        have hc₂ : c₂ = consume src n (c.agreed own x r) := by
          unfold c₂
          cases src <;> rfl
        have hsig : c₂.myIdSig = if own.hasIdentity && x.hasIdentity then
            S.sign (idTranscript c.ephKeys.pk x.ephPubKey own.nodeName) own.idKeys.sk else c.myIdSig := by
          rw [hc₂]
          cases src <;> rfl
        have huse : c₂.useIdentity = (own.hasIdentity && x.hasIdentity) := rfl
        have htag : c₂.myConfirmTag = r.myConfirmTag := rfl
        simp only [g, PeerConnection.authConfirm, huse, hsig, htag]
        split_ifs <;> rfl
      have hw₃ : Ticks O A (none, w) (none, w₃) := by
        refine h.stamp.tail (.accept (w := w.stamped O src (.hello ack x)) src n ack x r h.alive hst
          (Bool.eq_false_of_not_eq_true hid) hr ?_ rfl)
        simp only [w₃, hg]
        cases src <;> rfl
      exact .checked (hw₃.trans (flushOutbound_ticks w₃))

lemma handleAuthConfirm_ticks {tag : S.Block 32} {sig : Option (S.Block 64)}
    (h : Offers O w src (.authConfirm tag sig) n) : Lands O A (none, w)
      (handleAuthConfirm (ownerListener O) 0 tag sig n src (w.stamped O src (.authConfirm tag sig))) := by
  unfold handleAuthConfirm
  extract_lets c w₁
  have hdead : w₁.conn.dead = false := (consume_dead src n _).trans h.alive
  have blame (why : (c.secure = false ∨ c.state ≠ .awaitingConfirm) ∨ tag ≠ c.expectedPeerTag ∨
      (if c.useIdentity then identityFailure O.env.self c sig else none) ≠ none) :
      Blame O (some (src, .authConfirm tag sig, n)) (w.stamped O src (.authConfirm tag sig)).conn :=
    .confirm src tag sig n rfl why
  have eaten : Handling (some (src, .authConfirm tag sig, n)) (w.stamped O src (.authConfirm tag sig)).conn
      w₁.conn := .inr ⟨src, _, n, rfl, .inl rfl⟩
  by_cases hst : c.secure = false ∨ c.state ≠ .awaitingConfirm
  · rw [if_pos (by simpa using hst)]
    exact .blamed h.stamp (.inl rfl) h.alive (blame (.inl hst)) _ _ _
  · rw [if_neg (by simpa using hst)]
    obtain ⟨-, hst⟩ := not_or.mp hst
    by_cases htag : tag ≠ c.expectedPeerTag
    · rw [if_pos htag]
      exact .blamed h.stamp eaten hdead (blame (.inr (.inl htag))) _ _ _
    · rw [if_neg htag]
      split
      · rename_i what hv
        have hv : (if c.useIdentity then identityFailure O.env.self c sig else none) = some what := hv
        exact .blamed h.stamp eaten hdead (blame (.inr (.inr (by rw [hv]; nofun)))) _ _ _
      · rename_i hv
        let w₂ : Endpoint S := { w₁ with
          conn := { w₁.conn with state := .established }, told := w₁.told ++ [c.peerHello] }
        have hw₂ : Ticks O A (none, w) (none, w₂) :=
          h.stamp.tail (.confirm (w := w.stamped O src (.authConfirm tag sig)) src n tag sig h.alive
            (not_not.mp hst) (not_not.mp htag) hv rfl rfl)
        exact .checked (hw₂.trans (respond_ticks hA (.inl rfl)))

omit hA in
lemma Offers.early (h : Offers O w src f n) (hst : w.conn.state ≠ .established)
    (hf : f.forListener = true) (what : String) :
    Lands O A (none, w) (false, fail (ownerSink O) 0 .protocol 0 what (w.stamped O src f)) :=
  .blamed h.stamp (.inl rfl) h.alive (.early src f n rfl hst hf) _ _ _

omit hA in
lemma dispatch_data (d : DataView) : dispatch (ownerListener O) 0 (.data d) n src w =
    if w.conn.state ≠ .established then
      (false, fail (ownerSink O) 0 .protocol 0 "data before handshake" (w.stamped O src (.data d)))
    else if (!(respond O (w.stamped O src (.data d))).conn.dead) = true then
      (true, { respond O (w.stamped O src (.data d)) with
        conn := consume src n (respond O (w.stamped O src (.data d))).conn })
    else (false, respond O (w.stamped O src (.data d))) := rfl

lemma dispatch_ticks (h : Offers O w src f n) : Lands O A (none, w) (dispatch (ownerListener O) 0 f n src w) := by
  cases f with
  | hello ack x => exact handleHello_ticks hA h
  | authConfirm tag sig => exact handleAuthConfirm_ticks hA h
  | heartbeat => exact h.eaten trivial
  | goodbye =>
    have hf : Ticks O A (none, w) (none, fail (ownerSink O) 0 .socket 0 "peer said goodbye"
        { w.stamped O src .goodbye with conn := consume src n (w.stamped O src .goodbye).conn }) :=
      (h.eat trivial).trans (fail_ticks _ _ _)
    exact .ended hf (fail_kills _ _ _ _)
  | data d =>
    rw [dispatch_data]
    split_ifs with hst ha
    · exact h.early hst rfl _
    · have hr := h.stamp.trans (respond_ticks hA (.inl (not_not.mp hst)))
      have hd : (respond O (w.stamped O src (.data d))).conn.dead = false := by simpa using ha
      refine ⟨hr.tail (.eat src (.data d) n hd trivial rfl rfl), ?_⟩
      exact (congrArg (!·) ((consume_dead src n (respond O (w.stamped O src (.data d))).conn).trans hd)).symm
    · have hd : (respond O (w.stamped O src (.data d))).conn.dead = true := by simpa using ha
      exact .ended (h.stamp.trans (respond_ticks hA (.inl (not_not.mp hst)))) hd
  | membership m =>
    simp only [dispatch]
    split_ifs with hst
    · exact h.early hst rfl _
    · refine .checked ((h.eat trivial).trans (respond_ticks hA (.inl ?_)))
      exact (consume_state src n _).trans (not_not.mp hst)
  | identity r =>
    simp only [dispatch]
    split_ifs with hst
    · exact h.early hst rfl _
    · refine .checked ((h.eat trivial).trans (respond_ticks hA (.inl ?_)))
      exact (consume_state src n _).trans (not_not.mp hst)

end Input

end Multimaster
