import Multimaster.Connection.Output

/-! What sending can do to the world: touch the output fields of connections, ask the
environment, report errors, and close. -/

namespace Multimaster

variable {S : Suite} {W : Type}

def PeerConnection.inputSide (c : PeerConnection S) : PeerConnection S :=
  { c with
    outBuf := [], written := [], sent := [], lastSend := 0, sess := none, wantWrite := false
    ephKeys := ⟨S.zero 32, S.zero 32⟩
    registered := false, interestIn := false, interestOut := false, overflowed := false }

def Touch (c d : PeerConnection S) : Prop := d.inputSide = c.inputSide

lemma Touch.refl (c : PeerConnection S) : Touch c c := rfl

lemma Touch.trans {a b c : PeerConnection S} (h : Touch a b) (k : Touch b c) : Touch a c :=
  Eq.trans k h

namespace Touch

variable {c d : PeerConnection S} (h : Touch c d)

include h

lemma field {α : Type} (f : PeerConnection S → α) (hf : ∀ c, f c.inputSide = f c) : f d = f c := by
  rw [← hf d, ← hf c]
  exact congrArg f h

lemma failure : d.failure = c.failure := h.field PeerConnection.failure fun _ => rfl

end Touch

def Kept (c d : PeerConnection S) : Prop :=
  { d with failure := none }.inputSide = { c with failure := none }.inputSide

namespace Kept

variable {c d : PeerConnection S}

lemma refl (c : PeerConnection S) : Kept c c := rfl

lemma trans {e : PeerConnection S} (h : Kept c d) (k : Kept d e) : Kept c e := Eq.trans k h

lemma of_touch (h : Touch c d) : Kept c d := by
  have := congrArg (fun c : PeerConnection S => { c with failure := none }) h
  exact this

variable (h : Kept c d)

include h

lemma field {α : Type} (f : PeerConnection S → α)
    (hf : ∀ c, f { c with failure := none }.inputSide = f c) : f d = f c := by
  rw [← hf d, ← hf c]
  exact congrArg f h

lemma dead : d.dead = c.dead := h.field PeerConnection.dead fun _ => rfl
lemma state : d.state = c.state := h.field PeerConnection.state fun _ => rfl
lemma peerId : d.peerId = c.peerId := h.field PeerConnection.peerId fun _ => rfl
lemma inbound : d.inbound = c.inbound := h.field PeerConnection.inbound fun _ => rfl

end Kept

structure Tends (c d : PeerConnection S) : Prop where
  touch : Touch c d
  sent : d.sent = c.sent
  lastSend : d.lastSend = c.lastSend

structure Sink.Admits (K : Sink S W) (A : Frame S → Prop) (R : W → W → Prop) : Prop where
  refl : ∀ w, R w w
  trans : ∀ {a b c}, R a b → R b c → R a c
  bump : ∀ w, R w (K.bump w)
  tend : ∀ w p (f : PeerConnection S → PeerConnection S), (∀ c, Tends c (f c)) → R w (K.modify p f w)
  append : ∀ w p (rec : Bytes) (item : Sent S), A item.frame → R w (K.modify p
    (fun c => { c with outBuf := c.outBuf ++ rec, lastSend := K.now w, sent := c.sent ++ [item] }) (K.bump w))
  report : ∀ w e, R w (K.reportError e w)
  fail : ∀ w p cat err what, cat ≠ .protocol → what ≠ "peer said goodbye" → R w (Multimaster.fail K p cat err what w)

namespace Sink.Admits

variable {K : Sink S W} {A : Frame S → Prop} {R : W → W → Prop} (hR : K.Admits A R)

include hR

lemma updateEpoll (p : Ptr) (w : W) : R w (updateEpoll K p w) := by
  unfold Multimaster.updateEpoll
  extract_lets c needWrite
  split_ifs
  · exact hR.refl w
  · exact hR.refl w
  · exact hR.trans (hR.bump w) (hR.tend _ p _ fun _ => ⟨rfl, rfl, rfl⟩)
  · exact hR.bump w

lemma flushOutbound (p : Ptr) (w : W) : R w (flushOutbound K p w) := by
  unfold Multimaster.flushOutbound
  extract_lets r w'
  have hw : R w w' := hR.trans (hR.bump w) (hR.tend _ p _ fun _ => ⟨rfl, rfl, rfl⟩)
  split
  · exact hR.trans hw (hR.fail _ p _ _ _ (by decide) (by decide))
  · exact hR.trans hw (hR.updateEpoll p _)

lemma transmit (p : Ptr) (rec : Bytes) {item : Sent S} (hA : A item.frame) (w : W) :
    R w (transmit K p rec item w) :=
  hR.trans (hR.append w p rec item hA) (hR.flushOutbound p _)

lemma enqueue (p : Ptr) {f : Frame S} (hA : A f) (w : W) : R w (enqueue K p f w) := by
  unfold Multimaster.enqueue
  extract_lets c r w₁ w₂
  have hr : A r.2.1.frame := by
    rw [sealFrame_frame]
    exact hA
  have h₁ : R w w₁ := hR.tend w p _ fun _ => ⟨rfl, rfl, rfl⟩
  have h₂ : R w w₂ := hR.trans h₁ (hR.tend _ p _ fun _ => ⟨rfl, rfl, rfl⟩)
  split_ifs
  · exact hR.refl w
  · split
    · exact hR.trans h₂ (hR.fail _ p _ _ _ (by decide) (by decide))
    · exact hR.trans h₂ (hR.report _ _)
    · have h₃ := hR.tend w₂ p (fun c => { c with outBuf := [] }) fun _ => ⟨rfl, rfl, rfl⟩
      exact hR.trans (hR.trans h₂ h₃) (hR.transmit p _ hr _)
  · exact hR.trans h₁ (hR.transmit p _ hr _)

lemma maybeHeartbeat (p : Ptr) (now interval : ℤ) (hA : A .heartbeat) (w : W) :
    R w (maybeHeartbeat K p now interval w) := by
  unfold Multimaster.maybeHeartbeat
  extract_lets c
  split_ifs
  · exact hR.refl w
  · exact hR.enqueue p hA w
  · exact hR.refl w

lemma closeGracefully (p : Ptr) (hA : A .goodbye) (hk : ∀ w, R w (markDead K p w)) (w : W) :
    R w (closeGracefully K p w) := by
  unfold Multimaster.closeGracefully
  split_ifs
  · exact hR.refl w
  · exact hR.trans (hR.enqueue p hA w) (hk _)

lemma startConnect (p : Ptr) (w : W) : R w (startConnect K p w).2 := by
  unfold Multimaster.startConnect
  dsimp only
  have hw := hR.bump w
  split
  · exact hR.trans hw (hR.fail _ p _ _ _ (by decide) (by decide))
  · exact hR.trans hw (hR.fail _ p _ _ _ (by decide) (by decide))
  · exact hR.trans hw (hR.fail _ p _ _ _ (by decide) (by decide))
  · dsimp only
    exact hR.trans hw (hR.tend _ p _ fun _ => ⟨rfl, rfl, rfl⟩)

end Sink.Admits

structure Sink.Respects (K : Sink S W) (R : W → W → Prop) : Prop where
  refl : ∀ w, R w w
  trans : ∀ {a b c}, R a b → R b c → R a c
  bump : ∀ w, R w (K.bump w)
  touch : ∀ w p (f : PeerConnection S → PeerConnection S),
    (∀ c, Touch c (f c)) → R w (K.modify p f w)
  report : ∀ w e, R w (K.reportError e w)
  fail : ∀ w p cat err what, what ≠ "peer said goodbye" → R w (Multimaster.fail K p cat err what w)

namespace Sink.Respects

variable {K : Sink S W} {R : W → W → Prop} (hR : K.Respects R)

include hR

lemma admits : K.Admits (fun _ => True) R where
  refl := hR.refl
  trans := hR.trans
  bump := hR.bump
  tend w p f hf := hR.touch w p f fun c => (hf c).touch
  append w p _ _ _ := hR.trans (hR.bump w) (hR.touch _ p _ fun _ => rfl)
  report := hR.report
  fail w p cat err what _ hw := hR.fail w p cat err what hw

lemma flushOutbound (p : Ptr) (w : W) : R w (flushOutbound K p w) := hR.admits.flushOutbound p w

lemma transmit (p : Ptr) (rec : Bytes) (item : Sent S) (w : W) : R w (transmit K p rec item w) :=
  hR.admits.transmit p rec trivial w

lemma enqueue (p : Ptr) (f : Frame S) (w : W) : R w (enqueue K p f w) := hR.admits.enqueue p trivial w

lemma maybeHeartbeat (p : Ptr) (now interval : ℤ) (w : W) :
    R w (maybeHeartbeat K p now interval w) := hR.admits.maybeHeartbeat p now interval trivial w

lemma closeGracefully (p : Ptr) (hk : ∀ w, R w (markDead K p w)) (w : W) : R w (closeGracefully K p w) :=
  hR.admits.closeGracefully p trivial hk w

lemma startConnect (p : Ptr) (w : W) : R w (startConnect K p w).2 := hR.admits.startConnect p w

lemma sendHello (p : Ptr) (w : W) : R w (sendHello K p w) := by
  unfold Multimaster.sendHello
  extract_lets self c ephKeys w' h
  have hw : R w w' := hR.trans (hR.bump w) (hR.touch _ p _ (by intro; rfl))
  exact hR.trans hw (hR.transmit p _ _ w')

lemma startInbound (p : Ptr) (w : W) : R w (startInbound K p w) := by
  unfold Multimaster.startInbound
  extract_lets ok w₁ w₂
  have h₁ : R w w₁ := hR.bump w
  have h₂ : R w₁ w₂ := by
    unfold w₂
    split
    · exact hR.touch _ p _ (by intro; rfl)
    · exact hR.refl w₁
  exact hR.trans (hR.trans h₁ h₂) (hR.sendHello p w₂)

lemma sendAuthConfirm (p : Ptr) (w : W) : R w (sendAuthConfirm K p w) := hR.transmit p _ _ w

lemma onConnectComplete (p : Ptr) (hs : ∀ w, R w (K.modify p (fun c => { c with state := .handshaking }) w)) (w : W) :
    R w (onConnectComplete K p w) := by
  unfold Multimaster.onConnectComplete
  extract_lets err w₁ w₂ ok w₃ w₄
  have h₁ : R w w₁ := hR.bump w
  have h₃ : R w₁ w₃ := hR.trans (hs w₁) (hR.bump w₂)
  have h₄ : R w₃ w₄ := by
    unfold w₄
    split_ifs
    · exact hR.touch w₃ p _ (by intro; rfl)
    · exact hR.refl w₃
  split_ifs
  · exact hR.trans h₁ (hR.fail w₁ p _ _ _ (by decide))
  · exact hR.trans (hR.trans h₁ h₃) (hR.trans h₄ (hR.sendHello p w₄))

end Sink.Respects

end Multimaster
