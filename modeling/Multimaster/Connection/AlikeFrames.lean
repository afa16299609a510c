import Multimaster.Connection.Alike

/-! The handling of a frame in two runs side by side. -/

namespace Multimaster

variable {S : Suite}

def Intake.advance (src : Source) (n : ℕ) (x : Intake S) : Intake S :=
  match src with
  | .inBuf => { x with inBuf := x.inBuf.drop n }
  | .plainBuf => { x with plainBuf := x.plainBuf.drop n }

lemma consume_intake (src : Source) (n : ℕ) (c : PeerConnection S) :
    (consume src n c).intake = c.intake.advance src n := by
  cases src <;> rfl

def PeerConnection.counted (src : Source) (n : ℕ) (c : PeerConnection S) : PeerConnection S :=
  { c with plainRead := if src = .inBuf then c.plainRead + n else c.plainRead }

lemma consume_body (src : Source) (n : ℕ) (c : PeerConnection S) :
    (consume src n c).body = c.body.counted src n := by
  cases src <;> rfl

structure Match (B : Intake S → Intake S → Prop) (r q : Bool × Served S) : Prop where
  fst : r.1 = q.1
  verdict : r.1 = !r.2.conn.dead
  any : Alike (fun _ _ => True) r.2 q.2
  alive : r.1 = true → Alike B r.2 q.2

namespace Alike

variable {C : Client S} {b e : Batch} {B D : Intake S → Intake S → Prop} {w v : Served S}

lemma any (h : Alike B w v) : Alike (fun _ _ => True) w v := h.mono fun _ _ _ => trivial

lemma moved (h : Alike B w v) {g k : PeerConnection S → PeerConnection S}
    (hg : ∀ c, (g c).body = k c.body) (hi : D (g w.conn).intake (g v.conn).intake) :
    Alike D ((C.sink b).modify 0 g w) ((C.sink e).modify 0 g v) where
  calls := h.calls
  body := by
    have hb : (g w.conn).body = (g v.conn).body := by rw [hg w.conn, hg v.conn, h.body]
    exact hb
  intake := hi

lemma consume (h : Alike B w v) {src : Source} {n : ℕ}
    (hB : ∀ x y, B x y → D (x.advance src n) (y.advance src n)) :
    Alike D ((C.sink b).modify 0 (consume src n) w) ((C.sink e).modify 0 (consume src n) v) := by
  refine h.moved (consume_body src n) ?_
  rw [consume_intake, consume_intake]
  exact hB _ _ h.intake

lemma gone (h : Alike B w v) (cat : ErrorCategory) (err : ℤ) (what : String) :
    Match D (false, Multimaster.fail (C.sink b) 0 cat err what w)
      (false, Multimaster.fail (C.sink e) 0 cat err what v) :=
  ⟨rfl, by simp [Client.fail_dead], (h.fail cat err what).any, nofun⟩

lemma alive (h : Alike B w v) : Match B (!w.conn.dead, w) (!v.conn.dead, v) :=
  ⟨by rw [h.dead], rfl, h.any, fun _ => h⟩

lemma establish (h : Alike B w v) (x : Hello S) :
    Match B (establish (C.listener b) 0 x w) (establish (C.listener e) 0 x v) := by
  have h₁ : Alike B ((C.sink b).modify 0 (fun c => { c with state := .established }) w)
      ((C.sink e).modify 0 (fun c => { c with state := .established }) v) :=
    h.both (fun _ => rfl) fun _ => rfl
  exact (h₁.respond (.handshake x)).alive

lemma awaitConfirm (h : Alike B w v) (x : Hello S) (hr : HandshakeResult S)
    (hB : ∀ x y rx, B x y → B { x with rx } { y with rx }) :
    Match B (awaitConfirm (C.listener b) 0 x hr w) (awaitConfirm (C.listener e) 0 x hr v) := by
  unfold Multimaster.awaitConfirm
  extract_lets own useIdentity w₁ w₂ own' useIdentity' v₁ v₂
  have h₁ : Alike B w₁ v₁ := by
    refine h.moved (k := fun c => ({ c with
      sess := some { hr.session with rxCtr := 0 }
      myConfirmTag := hr.myConfirmTag
      expectedPeerTag := hr.expectedPeerTag
      peerHello := x
      useIdentity
      myIdSig :=
        if useIdentity then S.sign (idTranscript c.ephKeys.pk x.ephPubKey own.nodeName) own.idKeys.sk
        else c.myIdSig
      state := .awaitingConfirm })) (fun _ => rfl) ?_
    exact hB _ _ _ h.intake
  have h₂ : Alike B w₂ v₂ := by
    have ht : ((C.sink b).conn w₁ 0).myConfirmTag = ((C.sink e).conn v₁ 0).myConfirmTag :=
      h₁.field PeerConnection.myConfirmTag fun _ => rfl
    have hu : ((C.sink b).conn w₁ 0).useIdentity = ((C.sink e).conn v₁ 0).useIdentity :=
      h₁.field PeerConnection.useIdentity fun _ => rfl
    have hs : ((C.sink b).conn w₁ 0).myIdSig = ((C.sink e).conn v₁ 0).myIdSig :=
      h₁.field PeerConnection.myIdSig fun _ => rfl
    show Alike B (sendAuthConfirm (C.sink b) 0 w₁) (sendAuthConfirm (C.sink e) 0 v₁)
    simp only [sendAuthConfirm, PeerConnection.authConfirm, ht, hu, hs]
    exact h₁.transmit _ _
  exact h₂.alive

lemma eaten (h : Alike B w v) {src : Source} {n : ℕ} (hd : w.conn.dead = false)
    (hB : ∀ x y, B x y → D (x.advance src n) (y.advance src n)) :
    Match D (true, (C.sink b).modify 0 (Multimaster.consume src n) w)
      (true, (C.sink e).modify 0 (Multimaster.consume src n) v) := by
  have hw : ((C.sink b).modify 0 (Multimaster.consume src n) w).conn.dead = w.conn.dead := by
    cases src <;> rfl
  exact ⟨rfl, by rw [hw, hd]; rfl, (h.consume hB).any, fun _ => h.consume hB⟩

lemma handleHello (h : Alike B w v) (hd : w.conn.dead = false) (x : Hello S) {src : Source} {n : ℕ}
    (hB : ∀ x y, B x y → D (x.advance src n) (y.advance src n))
    (hrx : w.conn.state = .handshaking → ∀ x y rx, D x y → D { x with rx } { y with rx }) :
    Match D (handleHello (C.listener b) 0 x n src w) (handleHello (C.listener e) 0 x n src v) := by
  have hcfg : (C.listener b).env.cfg = (C.listener e).env.cfg := rfl
  have hself : (C.listener b).env.self = (C.listener e).env.self := rfl
  unfold Multimaster.handleHello
  extract_lets own c w₁ own' c' v₁
  have hst : c.state = c'.state := h.field PeerConnection.state fun _ => rfl
  have hse : c.secure = c'.secure := h.field PeerConnection.secure fun _ => rfl
  have hk : c.ephKeys = c'.ephKeys := h.field PeerConnection.ephKeys fun _ => rfl
  have h₁ : Alike D w₁ v₁ := by
    refine h.moved (k := fun c => PeerConnection.counted src n
      { c with peerId := x.nodeId, peerListenPort := x.tcpListenPort, peerNonce := x.nonce })
      (fun _ => consume_body src n _) ?_
    rw [consume_intake, consume_intake]
    exact hB _ _ h.intake
  by_cases hc : c.state ≠ .handshaking
  · rw [if_pos hc, if_pos (by rwa [← hst])]
    exact h.eaten hd hB
  · rw [if_neg hc, if_neg (show ¬c'.state ≠ .handshaking by rwa [← hst]), hcfg, hse, hk, show own = own' from rfl]
    have hB' := hrx (not_not.mp hc)
    split
    · exact h.gone _ _ _
    · split
      · exact h.gone _ _ _
      · split
        · exact h₁.establish x
        · split
          · exact h₁.gone _ _ _
          · split
            · exact h₁.gone _ _ _
            · exact h₁.awaitConfirm x _ hB'

lemma handleAuthConfirm (h : Alike B w v) (tag : S.Block 32) (sig : Option (S.Block 64)) {src : Source}
    {n : ℕ} (hB : ∀ x y, B x y → D (x.advance src n) (y.advance src n)) :
    Match D (handleAuthConfirm (C.listener b) 0 tag sig n src w)
      (handleAuthConfirm (C.listener e) 0 tag sig n src v) := by
  unfold Multimaster.handleAuthConfirm
  extract_lets c w₁ c' v₁
  have hst : c.state = c'.state := h.field PeerConnection.state fun _ => rfl
  have hse : c.secure = c'.secure := h.field PeerConnection.secure fun _ => rfl
  have ht : c.expectedPeerTag = c'.expectedPeerTag := h.field PeerConnection.expectedPeerTag fun _ => rfl
  have hu : c.useIdentity = c'.useIdentity := h.field PeerConnection.useIdentity fun _ => rfl
  have hp : c.peerHello = c'.peerHello := h.field PeerConnection.peerHello fun _ => rfl
  have hi : identityFailure (C.listener b).env.self c sig =
      identityFailure (C.listener e).env.self c' sig :=
    h.field (fun c => identityFailure (C.listener b).env.self c sig) fun _ => rfl
  have h₁ : Alike D w₁ v₁ := h.consume hB
  rw [hst, hse, ht, hu, hp, hi]
  split
  · exact h.gone _ _ _
  · split
    · exact h₁.gone _ _ _
    · split
      · exact h₁.gone _ _ _
      · exact h₁.establish _

lemma dispatch (h : Alike B w v) (hd : w.conn.dead = false) (f : Frame S) {src : Source} {n : ℕ}
    (hB : ∀ x y, B x y → D (x.advance src n) (y.advance src n))
    (hrx : w.conn.state = .handshaking → ∀ x y rx, D x y → D { x with rx } { y with rx }) :
    Match D (dispatch (C.listener b) 0 f n src w) (dispatch (C.listener e) 0 f n src v) := by
  unfold Multimaster.dispatch
  extract_lets now w₁ alive now' v₁ alive'
  have hb := congrArg (fun c : PeerConnection S => { c with dispatched := c.dispatched ++ [(src, f)] }) h.body
  have h₁ : Alike B w₁ v₁ := h.modify hb rfl rfl
  have hst : ((C.listener b).conn w₁ 0).state = ((C.listener e).conn v₁ 0).state :=
    h₁.field PeerConnection.state fun _ => rfl
  cases f with
  | hello ack x => exact h₁.handleHello hd x hB hrx
  | authConfirm tag sig => exact h₁.handleAuthConfirm tag sig hB
  | heartbeat => exact h₁.eaten hd hB
  | goodbye => exact (h₁.consume hB).gone _ _ _
  | data d =>
    dsimp only
    rw [hst]
    split
    · exact h₁.gone _ _ _
    · have h₂ := h₁.respond (C := C) (b := b) (e := e) (.data d)
      change Match D
        (if !(C.respond b (.data d) w₁).conn.dead then
          (true, (C.sink b).modify 0 (Multimaster.consume src n) (C.respond b (.data d) w₁))
        else (false, C.respond b (.data d) w₁))
        (if !(C.respond e (.data d) v₁).conn.dead then
          (true, (C.sink e).modify 0 (Multimaster.consume src n) (C.respond e (.data d) v₁))
        else (false, C.respond e (.data d) v₁))
      cases ha : (C.respond b (.data d) w₁).conn.dead with
      | false =>
        rw [← h₂.dead, ha]
        exact h₂.eaten ha hB
      | true =>
        rw [← h₂.dead, ha]
        exact ⟨rfl, (congrArg (fun x => !x) ha).symm, h₂.any, nofun⟩
  | membership m =>
    dsimp only
    rw [hst]
    split
    · exact h₁.gone _ _ _
    · exact ((h₁.consume hB).respond (.membership m)).alive
  | identity r =>
    dsimp only
    rw [hst]
    split
    · exact h₁.gone _ _ _
    · exact ((h₁.consume hB).respond (.identity r)).alive

end Alike

end Multimaster
