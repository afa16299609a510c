import Multimaster.Connection.Output

/-! Two listeners that differ in what a close does, but not in the states of interest: to those, whatever a connection
does is the same under both. -/

namespace Multimaster

variable {S : Suite} {W : Type}

def Sink.closingBy (K : Sink S W) (c : Ptr → W → W) : Sink S W := { K with onPeerClosed := c }

structure Sink.Agrees (K : Sink S W) (c : Ptr → W → W) (I : W → Prop) : Prop where
  bump : ∀ w, I w → I (K.bump w)
  setConn : ∀ w p d, I w → I (K.setConn p d w)
  report : ∀ w e, I w → I (K.reportError e w)
  closed : ∀ p w, I w → c p w = K.onPeerClosed p w

namespace Sink.Agrees

variable {K : Sink S W} {c : Ptr → W → W} {I : W → Prop} (h : K.Agrees c I) {w : W} (hw : I w)

include h hw

lemma markDead (p : Ptr) : markDead (K.closingBy c) p w = markDead K p w := by
  change (if (K.conn w p).dead then w else c p _) = if (K.conn w p).dead then w else K.onPeerClosed p _
  split_ifs
  · rfl
  · exact h.closed p _ (h.setConn w p _ hw)

lemma fail (p : Ptr) (cat : ErrorCategory) (err : ℤ) (what : String) :
    fail (K.closingBy c) p cat err what w = fail K p cat err what w := by
  unfold Multimaster.fail
  extract_lets d w₁ w₂ d' w₁' w₂'
  change (if d.dead then w else Multimaster.markDead (K.closingBy c) p w₂) =
    if d.dead then w else Multimaster.markDead K p w₂
  have h₁ : I w₁ := h.setConn w p _ hw
  have h₂ : I w₂ := by
    unfold w₂
    split
    · exact h.report w₁ _ h₁
    · exact h₁
  rw [h.markDead h₂]

lemma flushOutbound (p : Ptr) : flushOutbound (K.closingBy c) p w = flushOutbound K p w := by
  unfold Multimaster.flushOutbound
  extract_lets r v r' v'
  have hr : r' = r := rfl
  rw [hr]
  cases r.2.2 with
  | none => rfl
  | some e =>
    have hv : I v := h.setConn _ p _ (h.bump w hw)
    exact h.fail hv p _ _ _

lemma transmit (p : Ptr) (rec : Bytes) (item : Sent S) :
    transmit (K.closingBy c) p rec item w = transmit K p rec item w :=
  h.flushOutbound (w := K.setConn p _ (K.bump w)) (h.setConn _ p _ (h.bump w hw)) p

lemma enqueue (p : Ptr) (f : Frame S) : enqueue (K.closingBy c) p f w = enqueue K p f w := by
  unfold Multimaster.enqueue
  extract_lets d r w₁ w₂ d' r' w₁' w₂'
  have h₁ : I w₁ := h.setConn w p _ hw
  have h₂ : I w₂ := h.setConn w₁ p _ h₁
  change (if d.dead then w else if d.outBuf.length + r.1.length > K.env.cfg.maxOutboundQueueBytes then _
      else Multimaster.transmit (K.closingBy c) p r.1 r.2.1 w₁) =
    if d.dead then w else if d.outBuf.length + r.1.length > K.env.cfg.maxOutboundQueueBytes then _
      else Multimaster.transmit K p r.1 r.2.1 w₁
  split_ifs
  · rfl
  · have hcfg : K.env.cfg = (K.closingBy c).env.cfg := rfl
    rw [hcfg]
    cases (K.closingBy c).env.cfg.overflowPolicy with
    | disconnect => exact h.fail h₂ p _ _ _
    | dropNewest => rfl
    | dropOldest => exact h.transmit (w := K.setConn p _ w₂) (h.setConn w₂ p _ h₂) p _ _
  · exact h.transmit h₁ p _ _

lemma startConnect (p : Ptr) : (startConnect (K.closingBy c) p w).2 = (startConnect K p w).2 := by
  have hfail (err : ℤ) (what : String) := h.fail (h.bump w hw) p .socket err what
  unfold Multimaster.startConnect
  extract_lets answer w₁ answer' w₁'
  have hanswer : answer' = answer := rfl
  rw [hanswer]
  cases answer with
  | noSocket e => exact hfail e _
  | refused e => exact hfail e _
  | epollFailed e => exact hfail e _
  | inProgress => rfl

end Sink.Agrees

end Multimaster
