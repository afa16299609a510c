import Multimaster.Connection.InboundTurns

/-! What an event leaves of the inbound stream. -/

namespace Multimaster

variable {S : Suite}
variable {O : Owner S}

section Events

variable {w : Endpoint S}

def beforeRead (O : Owner S) (out : Bool) (w : Endpoint S) : Endpoint S :=
  let w := if w.conn.state == .connectingOut && out then onConnectComplete (ownerSink O) 0 w else w
  if w.conn.dead then w else if out then flushOutbound (ownerSink O) 0 w else w

def arriving (O : Owner S) (w : Endpoint S) : Bytes × Option (ℤ × String) := recvLoop (O.env.oracle.recv w.pos)

def drained (O : Owner S) (w : Endpoint S) : Endpoint S :=
  receive (ownerListener O) 0 (arriving O w).1 ((ownerSink O).bump w)

lemma onIoEvents_dead (hd : w.conn.dead = true) (hup out inn : Bool) :
    onIoEvents (ownerListener O) 0 hup out inn w = w := if_pos hd

lemma onIoEvents_hup (hd : w.conn.dead = false) (out inn : Bool) :
    onIoEvents (ownerListener O) 0 true out inn w = fail (ownerSink O) 0 .socket 0 "peer hangup/error" w := by
  have hnot : ¬((ownerListener O).conn w 0).dead = true := by
    rw [show ((ownerListener O).conn w 0).dead = false from hd]
    exact Bool.false_ne_true
  rw [onIoEvents, if_neg hnot]
  rfl

lemma onIoEvents_eq (hd : w.conn.dead = false) (out inn : Bool) :
    onIoEvents (ownerListener O) 0 false out inn w =
      if (beforeRead O out w).conn.dead = false ∧ inn = true then doRead (ownerListener O) 0 (beforeRead O out w)
      else beforeRead O out w := by
  have hnot : ¬((ownerListener O).conn w 0).dead = true := by
    rw [show ((ownerListener O).conn w 0).dead = false from hd]
    exact Bool.false_ne_true
  rw [onIoEvents, if_neg hnot, if_neg Bool.false_ne_true]
  extract_lets w₁ w₂
  have hb : beforeRead O out w = if w₁.conn.dead then w₁ else w₂ := rfl
  rw [hb]
  cases h₁ : w₁.conn.dead with
  | true =>
    rw [if_pos (show ((ownerListener O).conn w₁ 0).dead = true from h₁), if_pos rfl, h₁]
    rfl
  | false =>
    have h₁' : ¬((ownerListener O).conn w₁ 0).dead = true := by
      rw [show ((ownerListener O).conn w₁ 0).dead = false from h₁]
      exact Bool.false_ne_true
    rw [if_neg h₁', if_neg Bool.false_ne_true]
    cases h₂ : w₂.conn.dead with
    | true => exact if_pos h₂
    | false =>
      have h₂' : ¬((ownerListener O).conn w₂ 0).dead = true := by
        rw [show ((ownerListener O).conn w₂ 0).dead = false from h₂]
        exact Bool.false_ne_true
      rw [if_neg h₂']
      cases inn <;> rfl

lemma doRead_eq (w : Endpoint S) : doRead (ownerListener O) 0 w =
    (arriving O w).2.elim (parseInbound (ownerListener O) 0 (drained O w))
      fun x => fail (ownerSink O) 0 .socket x.1 x.2 (drained O w) := by
  unfold doRead
  extract_lets r w₁
  change _ = r.2.elim (parseInbound (ownerListener O) 0 w₁) _
  cases r.2 <;> rfl

lemma beforeRead_in (w : Endpoint S) : beforeRead O false w = w := by simp [beforeRead]

lemma onConnectComplete_unread (hst : w.conn.state = .connectingOut) :
    Unread w (onConnectComplete (ownerSink O) 0 w) := by
  have hR := unread_respects O
  unfold onConnectComplete
  extract_lets err w₁ w₂ ok w₃ w₄
  have h₁ : Unread w w₁ := hR.bump w
  have h₂ : Unread w₁ w₂ := by
    refine ⟨rfl, id, fun _ => ?_⟩
    have hw : sealedMode w.conn = false := by simp [sealedMode, hst]
    have hw₂ : sealedMode w₂.conn = false := by
      change (w.conn.secure && ConnState.handshaking == .established) = false
      simp
    rw [hw₂]
    exact hw.symm
  have h₃ : Unread w₂ w₄ := by
    refine (hR.bump w₂).trans ?_
    unfold w₄
    split
    · exact hR.touch _ 0 _ (by intro; rfl)
    · exact hR.refl _
  split_ifs
  · exact h₁.trans (fail_unread ..)
  · exact ((h₁.trans h₂).trans h₃).trans (hR.sendHello 0 w₄)

lemma beforeRead_unread (out : Bool) (w : Endpoint S) : Unread w (beforeRead O out w) := by
  have hR := unread_respects O
  unfold beforeRead
  extract_lets w₁
  have h₁ : Unread w w₁ := by
    unfold w₁
    split_ifs with h
    · exact onConnectComplete_unread (by simp at h; exact h.1)
    · exact hR.refl w
  split_ifs
  · exact h₁
  · exact h₁.trans (hR.flushOutbound 0 w₁)
  · exact h₁

lemma Rested.unread {M : ℕ} {v : Endpoint S} (h : Rested M w) (hu : Unread w v) : Rested M v := by
  cases hd : v.conn.dead with
  | true => exact .inl hd
  | false =>
    refine .inr ((h.resolve_left ?_).congr hu.unread (hu.mode hd))
    rw [hu.alive hd]
    exact Bool.false_ne_true

lemma Rested.spent {M : ℕ} (h : Rested M w) (hd : w.conn.dead = false) : w.conn.Spent M :=
  h.resolve_left (by rw [hd]; exact Bool.false_ne_true)

lemma startConnect_state (h : (startConnect (ownerSink O) 0 w).1 = true) :
    (startConnect (ownerSink O) 0 w).2.conn.state = w.conn.state := by
  revert h
  unfold startConnect
  dsimp only
  split
  iterate 3
    intro h
    cases h
  exact fun _ => rfl

lemma start_unread (O : Owner S) (inbound : Bool) :
    (Endpoint.start O inbound).conn.unparsed = ([], [], O.env.self.secure) := by
  have hR := unread_respects O
  unfold Endpoint.start
  extract_lets w r
  have hr : Unread w r.2 := hR.startConnect 0 w
  split_ifs with h h'
  · exact (hR.startInbound 0 w).unread
  · refine Eq.trans (onConnectComplete_unread ?_).unread hr.unread
    have hst : r.2.conn.state = w.conn.state := startConnect_state h'
    rw [hst]
    exact if_neg h
  · exact hr.unread

lemma start_rested (O : Owner S) (inbound : Bool) (M : ℕ) : Rested M (Endpoint.start O inbound) := by
  obtain ⟨hi, hp, -⟩ : (Endpoint.start O inbound).conn.inBuf = [] ∧ (Endpoint.start O inbound).conn.plainBuf = [] ∧
      (Endpoint.start O inbound).conn.secure = O.env.self.secure := by
    simpa [PeerConnection.unparsed] using start_unread O inbound
  refine .inr ?_
  unfold PeerConnection.Spent
  rw [hi, hp]
  split_ifs
  · exact ⟨rfl, rfl⟩
  · exact ⟨rfl, rfl⟩

lemma drained_plain {M : ℕ} (hs : w.conn.Spent M) (hm : sealedMode (drained O w).conn = false) :
    (drained O w).conn.plainBuf = [] := by
  have hm : sealedMode w.conn = false := hm
  rw [PeerConnection.Spent, if_neg (by simp [hm])] at hs
  exact hs.2

lemma react_rested (hM : O.env.cfg.Unwrapped) (hw : Rested O.env.cfg.maxMessageBytes w) (e : Stimulus S) :
    Rested O.env.cfg.maxMessageBytes (react O w e) := by
  cases e with
  | act a => exact hw.unread (act_unread w a)
  | io hup out inn =>
    change Rested _ (onIoEvents (ownerListener O) 0 hup out inn w)
    cases hd : w.conn.dead with
    | true =>
      rw [onIoEvents_dead hd]
      exact .inl hd
    | false =>
      cases hup with
      | true =>
        rw [onIoEvents_hup hd]
        exact .inl (fail_kills ..)
      | false =>
        rw [onIoEvents_eq hd]
        have hb : Rested O.env.cfg.maxMessageBytes (beforeRead O out w) := hw.unread (beforeRead_unread out w)
        split_ifs with h
        · rw [doRead_eq]
          cases (arriving O (beforeRead O out w)).2 with
          | some x => exact .inl (fail_kills ..)
          | none => exact parseInbound_ends hM h.1 (drained_plain (hb.spent h.1))
        · exact hb

lemma parsePlaintext_needMore (h : tryDecodeFrame (S := S) w.conn.inBuf O.env.cfg.maxMessageBytes = .needMore) :
    parsePlaintext (ownerListener O) 0 w = (true, w) := by
  have ht : plaintextTurn (ownerListener O) 0 w = .stop true w := by
    change tryDecodeFrame ((ownerListener O).conn w 0).inBuf (ownerListener O).env.cfg.maxMessageBytes = _ at h
    rw [plaintextTurn, h]
  rw [parsePlaintext, turns, ht]

lemma drainRecords_needMore
    (h : readRecord O.env.cfg.maxMessageBytes w.conn.intake.rx w.conn.inBuf = .needMore) :
    drainRecords (ownerListener O) 0 w = (true, w) := by
  have ht : recordTurn (ownerListener O) 0 w = .stop true w := by
    change readRecord (ownerListener O).env.cfg.maxMessageBytes ((ownerListener O).conn w 0).intake.rx
      ((ownerListener O).conn w 0).inBuf = _ at h
    rw [recordTurn_eq, h]
  rw [drainRecords, turns, ht]

lemma parseSecure_needMore (h : tryDecodeFrame (S := S) w.conn.plainBuf O.env.cfg.maxMessageBytes = .needMore) :
    parseSecure (ownerListener O) 0 w = w := by
  have ht : secureTurn (ownerListener O) 0 w = .stop true w := by
    change tryDecodeFrame ((ownerListener O).conn w 0).plainBuf (ownerListener O).env.cfg.maxMessageBytes = _ at h
    rw [secureTurn, h]
  rw [parseSecure, turns, ht]

lemma parseInbound_spent (hs : w.conn.Spent O.env.cfg.maxMessageBytes) : parseInbound (ownerListener O) 0 w = w := by
  unfold PeerConnection.Spent at hs
  unfold parseInbound
  cases hm : sealedMode w.conn with
  | false =>
    rw [hm, if_neg Bool.false_ne_true] at hs
    have hm' : sealedMode ((ownerListener O).conn w 0) = false := hm
    simp only [hm', parsePlaintext_needMore hs.1, Bool.not_false, Bool.not_true, if_true, Bool.false_eq_true, if_false]
  | true =>
    rw [hm, if_pos rfl] at hs
    have hm' : sealedMode ((ownerListener O).conn w 0) = true := hm
    simp only [hm', drainRecords_needMore hs.1, parseSecure_needMore hs.2, Bool.not_true, if_true, Bool.false_eq_true,
      if_false]

lemma parseInbound_held (hS : S.Shrinks) (hM : O.env.cfg.Unwrapped) (w : Endpoint S) :
    (parseInbound (ownerListener O) 0 w).conn.held ≤ w.conn.held := by
  let R (w v : Endpoint S) : Prop := v.conn.held ≤ w.conn.held
  have loop {turn : Endpoint S → Turn (Endpoint S)} (h : ∀ w, R w (turn w).world) (k : ℕ) (w : Endpoint S) :
      R w (turns turn k w).2 := by
    have hspec := turns_spec (R := R) (P := fun _ => True) (fun w => le_refl w.conn.held) (fun h k => le_trans k h)
      (fun w _ => ⟨h w, fun _ _ => trivial, fun _ _ => trivial⟩) k (w := w) trivial
    exact hspec.1
  unfold parseInbound
  extract_lets r q
  have hr : R w r.2 := by
    unfold r
    split_ifs
    · exact loop (plaintextTurn_held O) _ w
    · exact le_refl w.conn.held
  have hq : R r.2 q.2 := loop (recordTurn_held hS hM) _ r.2
  split_ifs
  · exact hr
  · exact hq.trans hr
  · exact ((loop (secureTurn_held O) _ q.2).trans hq).trans hr
  · exact hr

end Events

end Multimaster
