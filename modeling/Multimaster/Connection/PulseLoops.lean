import Multimaster.Connection.Pulses

/-! The loops of the parser as sequences of pulses. -/

namespace Multimaster

variable {S : Suite}
variable {O : Owner S} {A : Frame S → Prop}

namespace Pulses

variable {w v : Endpoint S}

lemma secure (h : Pulses O A w v) : v.conn.secure = w.conn.secure := by
  induction h with
  | refl => rfl
  | tail _ h ih =>
    refine Eq.trans ?_ ih
    cases h with
    | refuse src f d hd hc =>
      refine (standing_field hc PeerConnection.secure fun _ => rfl).trans ?_
      rcases hd with rfl | ⟨-, h, rfl⟩ <;> rfl
    | idle hc | send _ _ hc | vouch _ hc | die hc | hear _ _ _ hc | accept _ _ _ _ _ _ _ hc
    | confirm _ _ _ _ _ _ hc => exact standing_field hc PeerConnection.secure fun _ => rfl

lemma connected (h : Pulses O A w v) (hw : w.conn.state ≠ .connectingOut) :
    v.conn.state ≠ .connectingOut := by
  induction h with
  | refl => exact hw
  | tail _ h ih =>
    cases h with
    | idle hc | send _ _ hc | vouch _ hc | hear _ _ _ hc =>
      rw [standing_field hc PeerConnection.state fun _ => rfl]
      exact ih
    | die hc | refuse _ _ _ _ hc | accept _ _ _ _ _ _ _ hc | confirm _ _ _ _ _ _ hc =>
      rw [standing_field hc PeerConnection.state fun _ => rfl]
      exact ConnState.noConfusion

end Pulses

section Loops

def Parsing (w : Endpoint S) : Prop := w.conn.dead = false ∧ w.conn.secure = true

lemma dispatch_alive {w : Endpoint S} {f : Frame S} {consumed : ℕ} {src : Source}
    (hd : w.conn.dead = false) (h : (dispatch (ownerListener O) 0 f consumed src w).1 = true) :
    (dispatch (ownerListener O) 0 f consumed src w).2.conn.dead = false := by
  have eaten (v : Endpoint S) (hv : v.conn.dead = false) : (consume src consumed v.conn).dead = false :=
    (standing_field (consume_standing src consumed v.conn) PeerConnection.dead fun _ => rfl).trans hv
  have alive {v : Endpoint S} (hv : (!v.conn.dead) = true) : v.conn.dead = false := by simpa using hv
  revert h
  cases f with
  | heartbeat => exact fun _ => eaten _ hd
  | goodbye => exact nofun
  | hello ack h =>
    change (handleHello (ownerListener O) 0 h consumed src (w.stamped O src (.hello ack h))).1 = true →
      (handleHello (ownerListener O) 0 h consumed src (w.stamped O src (.hello ack h))).2.conn.dead = false
    unfold handleHello
    extract_lets own c w₁
    split_ifs
    · exact fun _ => eaten (w.stamped O src (.hello ack h)) hd
    · exact nofun
    · exact nofun
    · exact alive
    · exact nofun
    · split
      · exact nofun
      · exact alive
  | authConfirm tag sig =>
    change (handleAuthConfirm (ownerListener O) 0 tag sig consumed src
        (w.stamped O src (.authConfirm tag sig))).1 = true →
      (handleAuthConfirm (ownerListener O) 0 tag sig consumed src
        (w.stamped O src (.authConfirm tag sig))).2.conn.dead = false
    unfold handleAuthConfirm
    extract_lets c w₁
    by_cases hst : (!c.secure || c.state ≠ .awaitingConfirm) = true
    · rw [if_pos hst]
      exact nofun
    rw [if_neg hst]
    by_cases htag : tag ≠ c.expectedPeerTag
    · rw [if_pos htag]
      exact nofun
    · rw [if_neg htag]
      split
      · exact nofun
      · exact alive
  | data d =>
    simp only [dispatch]
    split_ifs with hst ha
    · exact nofun
    · exact fun _ => eaten _ (alive ha)
    · exact nofun
  | membership m =>
    simp only [dispatch]
    split_ifs
    · exact nofun
    · exact alive
  | identity r =>
    simp only [dispatch]
    split_ifs
    · exact nofun
    · exact alive

variable (hA : Sends O A)

include hA

lemma plaintextTurn_pulses (w : Endpoint S) (hw : Parsing w) :
    Pulses O A w (plaintextTurn (ownerListener O) 0 w).world ∧
      (∀ v, plaintextTurn (ownerListener O) 0 w = .again v → Parsing v) ∧
      ∀ v, plaintextTurn (ownerListener O) 0 w = .stop true v → Parsing v := by
  unfold plaintextTurn
  split
  · refine ⟨.refl, by rintro _ ⟨⟩, ?_⟩
    rintro _ ⟨⟩
    exact hw
  · exact ⟨fail_pulses _ _ _ _, by rintro _ ⟨⟩, by rintro _ ⟨⟩⟩
  · rename_i f consumed _
    extract_lets r
    have hr : Pulses O A w r.2 := dispatch_pulses hA .inBuf consumed f hw.1 hw.2
    have hp (ha : r.1 = true) : Parsing r.2 := ⟨dispatch_alive hw.1 ha, hr.secure.trans hw.2⟩
    split_ifs with ha hs
    · exact ⟨hr, by rintro _ ⟨⟩, by rintro _ ⟨⟩⟩
    · refine ⟨hr, by rintro _ ⟨⟩, ?_⟩
      rintro _ ⟨⟩
      exact hp (by simpa using ha)
    · refine ⟨hr, ?_, by rintro _ ⟨⟩⟩
      rintro _ ⟨⟩
      exact hp (by simpa using ha)

lemma secureTurn_pulses (w : Endpoint S) (hw : Parsing w) :
    Pulses O A w (secureTurn (ownerListener O) 0 w).world ∧
      (∀ v, secureTurn (ownerListener O) 0 w = .again v → Parsing v) ∧
      ∀ v, secureTurn (ownerListener O) 0 w = .stop true v → Parsing v := by
  unfold secureTurn
  split
  · refine ⟨.refl, by rintro _ ⟨⟩, ?_⟩
    rintro _ ⟨⟩
    exact hw
  · exact ⟨fail_pulses _ _ _ _, by rintro _ ⟨⟩, by rintro _ ⟨⟩⟩
  · rename_i f consumed _
    extract_lets r
    have hr : Pulses O A w r.2 := dispatch_pulses hA .plainBuf consumed f hw.1 hw.2
    split_ifs with ha
    · exact ⟨hr, by rintro _ ⟨⟩, by rintro _ ⟨⟩⟩
    · refine ⟨hr, ?_, by rintro _ ⟨⟩⟩
      rintro _ ⟨⟩
      exact ⟨dispatch_alive hw.1 (by simpa using ha), hr.secure.trans hw.2⟩

omit hA in
lemma recordTurn_pulses (w : Endpoint S) (hw : Parsing w) :
    Pulses O A w (recordTurn (ownerListener O) 0 w).world ∧
      (∀ v, recordTurn (ownerListener O) 0 w = .again v → Parsing v) ∧
      ∀ v, recordTurn (ownerListener O) 0 w = .stop true v → Parsing v := by
  have stays : Pulses O A w w ∧ (∀ v, Turn.stop true w = .again v → Parsing v) ∧
      ∀ v, Turn.stop true w = .stop true v → Parsing v := by
    refine ⟨.refl, by rintro _ ⟨⟩, ?_⟩
    rintro _ ⟨⟩
    exact hw
  have dies (cat : ErrorCategory) (what : String) :
      Pulses O A w (Turn.stop false (fail (ownerSink O) 0 cat 0 what w)).world ∧
      (∀ v, Turn.stop false (fail (ownerSink O) 0 cat 0 what w) = .again v → Parsing v) ∧
      ∀ v, Turn.stop false (fail (ownerSink O) 0 cat 0 what w) = .stop true v → Parsing v :=
    ⟨fail_pulses _ _ _ _, by rintro _ ⟨⟩, by rintro _ ⟨⟩⟩
  unfold recordTurn
  extract_lets c clen
  split
  · exact stays
  split
  · exact dies _ _
  split
  · exact stays
  split
  · exact dies _ _
  · refine ⟨.single (.idle rfl rfl rfl), ?_, by rintro _ ⟨⟩⟩
    rintro _ ⟨⟩
    exact hw

lemma parseInbound_pulses {w : Endpoint S} (hw : Parsing w) :
    Pulses O A w (parseInbound (ownerListener O) 0 w) := by
  have refl (w : Endpoint S) : Pulses O A w w := .refl
  unfold parseInbound
  extract_lets r q
  have hr : Pulses O A w r.2 ∧ (r.1 = true → Parsing r.2) := by
    unfold r
    split
    · exact turns_spec refl .trans (plaintextTurn_pulses hA) _ hw
    · exact ⟨.refl, fun _ => hw⟩
  have hq (ha : r.1 = true) : Pulses O A r.2 q.2 ∧ (q.1 = true → Parsing q.2) :=
    turns_spec refl .trans recordTurn_pulses _ (hr.2 ha)
  split_ifs with ha hs hb
  · exact hr.1
  · exact hr.1.trans (hq (by simpa using ha)).1
  · have hq := hq (by simpa using ha)
    have ht := turns_spec refl .trans (secureTurn_pulses hA) (q.2.conn.plainBuf.length + 1)
      (hq.2 (by simpa using hb))
    exact (hr.1.trans hq.1).trans ht.1
  · exact hr.1

lemma doRead_pulses {w : Endpoint S} (hw : Parsing w) : Pulses O A w (doRead (ownerListener O) 0 w) := by
  unfold doRead
  extract_lets r w₁
  have h₁ : Pulses O A w w₁ := .single (.idle rfl rfl rfl)
  split
  · exact h₁.trans (fail_pulses _ _ _ _)
  · exact h₁.trans (parseInbound_pulses hA hw)

lemma react_pulses {w : Endpoint S} (hc : w.conn.state ≠ .connectingOut) (hsec : w.conn.secure = true)
    {e : Stimulus S} (he : ∀ f, e = .act (.send f) → A f) : Pulses O A w (react O w e) := by
  cases e with
  | act a => exact act_pulses hA (fun f ha => he f (ha ▸ rfl)) w
  | io hup out inn =>
    change Pulses O A w (onIoEvents (ownerListener O) 0 hup out inn w)
    unfold onIoEvents
    extract_lets w₁ w₂
    have hw₁ : w₁ = w := by
      refine if_neg ?_
      have : (w.conn.state == .connectingOut) = false := by simpa using hc
      simp [show (ownerListener O).conn w 0 = w.conn from rfl, this]
    have hw₂ : Pulses O A w w₂ := by
      unfold w₂
      rw [hw₁]
      split
      · exact flushOutbound_pulses w
      · exact .refl
    split_ifs with hd hh hd₁ hd₂ hin
    · exact .refl
    · exact fail_pulses _ _ _ _
    · rw [hw₁]
    · exact hw₂
    · exact hw₂.trans (doRead_pulses hA ⟨Bool.eq_false_of_not_eq_true hd₂, hw₂.secure.trans hsec⟩)
    · exact hw₂

end Loops

end Multimaster
