import Multimaster.Connection.Admitting
import Multimaster.Connection.Input

/-! Relations that no change to a connection object breaks: whatever a connection does keeps them, if the calls of its
listener do. -/

namespace Multimaster

variable {S : Suite} {W : Type}

structure Sink.Heeds (K : Sink S W) (R : W → W → Prop) : Prop where
  refl : ∀ w, R w w
  trans : ∀ {a b c}, R a b → R b c → R a c
  bump : ∀ w, R w (K.bump w)
  modify : ∀ w p f, R w (K.modify p f w)
  report : ∀ w e, R w (K.reportError e w)
  closed : ∀ w p, R w (K.onPeerClosed p w)

namespace Sink.Heeds

variable {K : Sink S W} {R : W → W → Prop} (hR : K.Heeds R)

include hR

lemma markDead (p : Ptr) (w : W) : R w (markDead K p w) := by
  unfold Multimaster.markDead
  split_ifs
  · exact hR.refl w
  · exact hR.trans (hR.modify w p _) (hR.closed _ p)

lemma fail (p : Ptr) (cat : ErrorCategory) (err : ℤ) (what : String) (w : W) : R w (fail K p cat err what w) := by
  unfold Multimaster.fail
  extract_lets c w₁ w₂
  have h₁ : R w w₁ := hR.modify w p _
  have h₂ : R w₁ w₂ := by
    unfold w₂
    split
    · exact hR.report w₁ _
    · exact hR.refl w₁
  split_ifs
  · exact hR.refl w
  · exact hR.trans (hR.trans h₁ h₂) (hR.markDead p w₂)

lemma respects : K.Respects R where
  refl := hR.refl
  trans := hR.trans
  bump := hR.bump
  touch w p f _ := hR.modify w p f
  report := hR.report
  fail w p cat err what _ := hR.fail p cat err what w

lemma enqueue (p : Ptr) (f : Frame S) (w : W) : R w (enqueue K p f w) := hR.respects.enqueue p f w

lemma closeGracefully (p : Ptr) (w : W) : R w (closeGracefully K p w) :=
  hR.respects.closeGracefully p (hR.markDead p) w

lemma onConnectComplete (p : Ptr) (w : W) : R w (onConnectComplete K p w) :=
  hR.respects.onConnectComplete p (fun w => hR.modify w p _) w

end Sink.Heeds

structure Listener.Heeds (L : Listener S W) (R : W → W → Prop) : Prop extends L.toSink.Heeds R where
  handshake : ∀ w p h, R w (L.onPeerHandshake p h w)
  membership : ∀ w p m, R w (L.onPeerMembership p m w)
  identity : ∀ w p r, R w (L.onPeerIdentity p r w)

namespace Listener.Heeds

variable {L : Listener S W} {R : W → W → Prop} (hR : L.Heeds R)

include hR

lemma establish (p : Ptr) (h : Hello S) (w : W) : R w (establish L p h w).2 :=
  hR.trans (hR.modify w p _) (hR.handshake _ p h)

lemma awaitConfirm (p : Ptr) (h : Hello S) (hr : HandshakeResult S) (w : W) : R w (awaitConfirm L p h hr w).2 :=
  hR.trans (hR.modify w p _) (hR.respects.sendAuthConfirm p _)

lemma handleHello (p : Ptr) (h : Hello S) (consumed : ℕ) (src : Source) (w : W) :
    R w (handleHello L p h consumed src w).2 := by
  unfold Multimaster.handleHello
  extract_lets self c w₁
  have h₁ : R w w₁ := hR.modify w p _
  split_ifs
  · exact hR.modify w p _
  · exact hR.fail p _ _ _ w
  · exact hR.fail p _ _ _ w
  · exact hR.trans h₁ (hR.establish p h w₁)
  · exact hR.trans h₁ (hR.fail p _ _ _ w₁)
  · split
    · exact hR.trans h₁ (hR.fail p _ _ _ w₁)
    · exact hR.trans h₁ (hR.awaitConfirm p h _ w₁)

lemma handleAuthConfirm (p : Ptr) (tag : S.Block 32) (sig : Option (S.Block 64)) (consumed : ℕ) (src : Source) (w : W) :
    R w (handleAuthConfirm L p tag sig consumed src w).2 := by
  unfold Multimaster.handleAuthConfirm
  extract_lets c w₁
  have h₁ : R w w₁ := hR.modify w p _
  split
  · exact hR.fail p _ _ _ w
  split
  · exact hR.trans h₁ (hR.fail p _ _ _ w₁)
  split
  · exact hR.trans h₁ (hR.fail p _ _ _ w₁)
  · exact hR.trans h₁ (hR.establish p _ w₁)

lemma dispatch (p : Ptr) {f : Frame S} (hf : ∀ d, f = .data d → ∀ w, R w (L.onPeerData p d w)) (consumed : ℕ)
    (src : Source) (w : W) : R w (dispatch L p f consumed src w).2 := by
  unfold Multimaster.dispatch
  extract_lets now w₁ alive
  have h₁ : R w w₁ := hR.trans (hR.bump w) (hR.modify _ p _)
  refine hR.trans h₁ ?_
  cases f with
  | hello ack h => exact hR.handleHello p h consumed src w₁
  | authConfirm tag sig => exact hR.handleAuthConfirm p tag sig consumed src w₁
  | heartbeat => exact hR.modify w₁ p _
  | goodbye => exact hR.trans (hR.modify w₁ p _) (hR.fail p _ _ _ _)
  | data d =>
    dsimp only
    split_ifs
    · exact hR.fail p _ _ _ w₁
    · exact hR.trans (hf d rfl w₁) (hR.modify _ p _)
    · exact hf d rfl w₁
  | membership m =>
    dsimp only
    split_ifs
    · exact hR.fail p _ _ _ w₁
    · exact hR.trans (hR.modify w₁ p _) (hR.membership _ p m)
  | identity r =>
    dsimp only
    split_ifs
    · exact hR.fail p _ _ _ w₁
    · exact hR.trans (hR.modify w₁ p _) (hR.identity _ p r)

lemma plaintextTurn (p : Ptr) (w : W) (hf : ∀ d consumed,
    tryDecodeFrame (S := S) (L.conn w p).inBuf L.env.cfg.maxMessageBytes = .ok (.data d) consumed →
      ∀ w, R w (L.onPeerData p d w)) : R w (plaintextTurn L p w).world := by
  unfold Multimaster.plaintextTurn
  split
  · exact hR.refl w
  · exact hR.fail p _ _ _ w
  · next f consumed hdec =>
    have h := hR.dispatch p (fun d hd => hf d consumed (hd ▸ hdec)) consumed .inBuf w
    dsimp only
    split_ifs <;> exact h

lemma recordTurn (p : Ptr) (w : W) : R w (recordTurn L p w).world := by
  unfold Multimaster.recordTurn
  extract_lets c clen
  split_ifs
  · exact hR.refl w
  · exact hR.fail p _ _ _ w
  · exact hR.refl w
  · split
    · exact hR.fail p _ _ _ w
    · rw [Turn.world]
      exact hR.modify w p _

lemma secureTurn (p : Ptr) (w : W) (hf : ∀ d consumed,
    tryDecodeFrame (S := S) (L.conn w p).plainBuf L.env.cfg.maxMessageBytes = .ok (.data d) consumed →
      ∀ w, R w (L.onPeerData p d w)) : R w (secureTurn L p w).world := by
  unfold Multimaster.secureTurn
  split
  · exact hR.refl w
  · exact hR.fail p _ _ _ w
  · next f consumed hdec =>
    have h := hR.dispatch p (fun d hd => hf d consumed (hd ▸ hdec)) consumed .plainBuf w
    dsimp only
    split_ifs <;> exact h

end Listener.Heeds

section Turns

variable {L : Listener S W} {p : Ptr} {w : W} {f : Frame S} {consumed : ℕ}

lemma plaintextTurn_world (h : tryDecodeFrame (L.conn w p).inBuf L.env.cfg.maxMessageBytes = .ok f consumed) :
    (plaintextTurn L p w).world = (dispatch L p f consumed .inBuf w).2 := by
  unfold plaintextTurn
  rw [h]
  dsimp only
  split_ifs <;> rfl

lemma secureTurn_world (h : tryDecodeFrame (L.conn w p).plainBuf L.env.cfg.maxMessageBytes = .ok f consumed) :
    (secureTurn L p w).world = (dispatch L p f consumed .plainBuf w).2 := by
  unfold secureTurn
  rw [h]
  dsimp only
  split_ifs <;> rfl

end Turns

end Multimaster
