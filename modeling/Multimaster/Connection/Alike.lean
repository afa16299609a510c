import Multimaster.Connection.Client

/-! Two runs of a connection side by side, under the same client and different clocks. -/

namespace Multimaster

variable {S : Suite}

structure Intake (S : Suite) where
  inBuf : Bytes
  plainBuf : Bytes
  rx : Option (S.Block 32 × UInt64)

def PeerConnection.intake (c : PeerConnection S) : Intake S where
  inBuf := c.inBuf
  plainBuf := c.plainBuf
  rx := c.sess.map fun s => (s.rxKey, s.rxCtr)

def PeerConnection.body (c : PeerConnection S) : PeerConnection S :=
  { c with
    inBuf := [], plainBuf := [], opened := [], heard := [], lastRecv := 0, lastSend := 0
    sess := c.sess.map fun s => { s with rxCtr := 0 } }

structure Alike (B : Intake S → Intake S → Prop) (w v : Served S) : Prop where
  calls : w.calls = v.calls
  body : w.conn.body = v.conn.body
  intake : B w.conn.intake v.conn.intake

namespace Alike

variable {C : Client S} {b e : Batch} {B : Intake S → Intake S → Prop} {w v : Served S}

lemma field (h : Alike B w v) {α : Type} (f : PeerConnection S → α) (hf : ∀ c, f c.body = f c) :
    f w.conn = f v.conn := by
  rw [← hf w.conn, ← hf v.conn, h.body]

lemma dead (h : Alike B w v) : w.conn.dead = v.conn.dead := h.field PeerConnection.dead fun _ => rfl

lemma modify (h : Alike B w v) {g g' : PeerConnection S → PeerConnection S}
    (hb : (g w.conn).body = (g' v.conn).body) (hc : (g w.conn).intake = w.conn.intake)
    (hd : (g' v.conn).intake = v.conn.intake) :
    Alike B ((C.sink b).modify 0 g w) ((C.sink e).modify 0 g' v) where
  calls := h.calls
  body := hb
  intake := by
    have hi := h.intake
    rw [← hc, ← hd] at hi
    exact hi

lemma both (h : Alike B w v) {g : PeerConnection S → PeerConnection S}
    (hg : ∀ c, (g c).body = g c.body) (hi : ∀ c, (g c).intake = c.intake) :
    Alike B ((C.sink b).modify 0 g w) ((C.sink e).modify 0 g v) :=
  h.modify (by rw [hg w.conn, hg v.conn, h.body]) (hi _) (hi _)

lemma called (h : Alike B w v) (x : Call S) : Alike B (w.called x) (v.called x) where
  calls := by rw [Served.called, Served.called, h.calls]
  body := h.body
  intake := h.intake

lemma markDead (h : Alike B w v) : Alike B (markDead (C.sink b) 0 w) (markDead (C.sink e) 0 v) := by
  have hd : ((C.sink b).conn w 0).dead = ((C.sink e).conn v 0).dead := h.dead
  unfold Multimaster.markDead
  rw [hd]
  split
  · exact h
  · exact (h.both (g := PeerConnection.killed) (fun _ => rfl) fun _ => rfl).called .closed

lemma fail (h : Alike B w v) (cat : ErrorCategory) (err : ℤ) (what : String) :
    Alike B (fail (C.sink b) 0 cat err what w) (fail (C.sink e) 0 cat err what v) := by
  have hd : ((C.sink b).conn w 0).dead = ((C.sink e).conn v 0).dead := h.dead
  have hp : ((C.sink b).conn w 0).peerId = ((C.sink e).conn v 0).peerId :=
    h.field PeerConnection.peerId fun _ => rfl
  unfold Multimaster.fail
  extract_lets c w₁ w₂ c' v₁ v₂
  have h₁ : Alike B w₁ v₁ := h.both (fun _ => rfl) fun _ => rfl
  have h₂ : Alike B w₂ v₂ := by
    unfold w₂ v₂
    rw [hp]
    split
    · exact h₁.called _
    · exact h₁
  rw [hd]
  split
  · exact h
  · exact h₂.markDead

lemma pos (h : Alike B w v) : (C.sink b).pos w = (C.sink e).pos v := by
  have hs : w.conn.sent = v.conn.sent := h.field PeerConnection.sent fun _ => rfl
  have hd : w.conn.dispatched = v.conn.dispatched := h.field PeerConnection.dispatched fun _ => rfl
  show w.conn.sent.length + w.conn.dispatched.length = v.conn.sent.length + v.conn.dispatched.length
  rw [hs, hd]

lemma updateEpoll (h : Alike B w v) :
    Alike B (updateEpoll (C.sink b) 0 w) (updateEpoll (C.sink e) 0 v) := by
  have hd : ((C.sink b).conn w 0).dead = ((C.sink e).conn v 0).dead := h.dead
  have hr : ((C.sink b).conn w 0).registered = ((C.sink e).conn v 0).registered :=
    h.field PeerConnection.registered fun _ => rfl
  have ho : ((C.sink b).conn w 0).outBuf = ((C.sink e).conn v 0).outBuf :=
    h.field PeerConnection.outBuf fun _ => rfl
  have hs : ((C.sink b).conn w 0).state = ((C.sink e).conn v 0).state :=
    h.field PeerConnection.state fun _ => rfl
  have hw : ((C.sink b).conn w 0).wantWrite = ((C.sink e).conn v 0).wantWrite :=
    h.field PeerConnection.wantWrite fun _ => rfl
  have he : (C.sink b).env.oracle.epoll ((C.sink b).pos w) =
      (C.sink e).env.oracle.epoll ((C.sink e).pos v) := by
    rw [h.pos (C := C) (b := b) (e := e)]
    rfl
  unfold Multimaster.updateEpoll
  dsimp only
  rw [hd, hr, ho, hs, hw, he]
  split
  · exact h
  · split
    · exact h
    · split
      · exact h.both (fun _ => rfl) fun _ => rfl
      · exact h

lemma flushOutbound (h : Alike B w v) :
    Alike B (flushOutbound (C.sink b) 0 w) (flushOutbound (C.sink e) 0 v) := by
  have hr : sendLoop ((C.sink b).env.oracle.send ((C.sink b).pos w)) ((C.sink b).conn w 0).outBuf =
      sendLoop ((C.sink e).env.oracle.send ((C.sink e).pos v)) ((C.sink e).conn v 0).outBuf := by
    have ho : ((C.sink b).conn w 0).outBuf = ((C.sink e).conn v 0).outBuf :=
      h.field PeerConnection.outBuf fun _ => rfl
    rw [h.pos (C := C) (b := b) (e := e), ho]
    rfl
  unfold Multimaster.flushOutbound
  rw [hr]
  extract_lets r w₁ v₁
  have h₁ : Alike B w₁ v₁ := h.both (fun _ => rfl) fun _ => rfl
  split
  · exact h₁.fail _ _ _
  · exact h₁.updateEpoll

lemma transmit (h : Alike B w v) (rec : Bytes) (item : Sent S) :
    Alike B (transmit (C.sink b) 0 rec item w) (transmit (C.sink e) 0 rec item v) := by
  unfold Multimaster.transmit
  extract_lets now w₁ now' v₁
  have hb := congrArg (fun c : PeerConnection S =>
    { c with outBuf := c.outBuf ++ rec, sent := c.sent ++ [item] }) h.body
  have h₁ : Alike B w₁ v₁ := h.modify hb rfl rfl
  exact h₁.flushOutbound

lemma sealFrame (c : PeerConnection S) (f : Frame S) :
    { c with sess := (sealFrame c f).2.2 }.intake = c.intake ∧
    (Multimaster.sealFrame c f).1 = (Multimaster.sealFrame c.body f).1 ∧
    (Multimaster.sealFrame c f).2.1 = (Multimaster.sealFrame c.body f).2.1 ∧
    { c with sess := (Multimaster.sealFrame c f).2.2 }.body =
      { c.body with sess := (Multimaster.sealFrame c.body f).2.2 } := by
  have hs : c.body.secure = c.secure := rfl
  have ht : c.body.state = c.state := rfl
  unfold Multimaster.sealFrame
  rw [hs, ht]
  cases hc : c.sess with
  | none => simp [PeerConnection.body, PeerConnection.intake, hc]
  | some s =>
    have hb : c.body.sess = some { s with rxCtr := 0 } := by simp [PeerConnection.body, hc]
    rw [hb]
    dsimp only
    split
    · simp [PeerConnection.body, PeerConnection.intake, hc, SecureSession.seal]
    · simp [PeerConnection.body, PeerConnection.intake, hc]

lemma enqueue (h : Alike B w v) (f : Frame S) :
    Alike B (enqueue (C.sink b) 0 f w) (enqueue (C.sink e) 0 f v) := by
  obtain ⟨hi, hrec, hitem, hsess⟩ := sealFrame w.conn f
  obtain ⟨hi', hrec', hitem', hsess'⟩ := sealFrame v.conn f
  have hb := congrArg (fun c : PeerConnection S =>
    { c with sess := (Multimaster.sealFrame c f).2.2 }) h.body
  unfold Multimaster.enqueue
  extract_lets c r w₁ w₂ c' r' v₁ v₂
  have hcfg : (C.sink b).env.cfg = (C.sink e).env.cfg := rfl
  have hd : c.dead = c'.dead := h.dead
  have ho : c.outBuf = c'.outBuf := h.field PeerConnection.outBuf fun _ => rfl
  have hp : c.peerId = c'.peerId := h.field PeerConnection.peerId fun _ => rfl
  have hr₁ : r.1 = r'.1 :=
    hrec.trans ((congrArg (fun d => (Multimaster.sealFrame d f).1) h.body).trans hrec'.symm)
  have hr₂ : r.2.1 = r'.2.1 :=
    hitem.trans ((congrArg (fun d => (Multimaster.sealFrame d f).2.1) h.body).trans hitem'.symm)
  have h₁ : Alike B w₁ v₁ := h.modify (hsess.trans (hb.trans hsess'.symm)) hi hi'
  have h₂ : Alike B w₂ v₂ := h₁.both (fun _ => rfl) fun _ => rfl
  rw [hcfg, hd, ho, hp, hr₁, hr₂]
  split
  · exact h
  · split
    · split
      · exact h₂.fail _ _ _
      · exact h₂.called _
      · exact Alike.transmit (h₂.both (g := fun c => { c with outBuf := [] }) (fun _ => rfl) fun _ => rfl) _ _
    · exact h₁.transmit _ _

lemma closeGracefully (h : Alike B w v) :
    Alike B (closeGracefully (C.sink b) 0 w) (closeGracefully (C.sink e) 0 v) := by
  have hd : ((C.sink b).conn w 0).dead = ((C.sink e).conn v 0).dead := h.dead
  unfold Multimaster.closeGracefully
  rw [hd]
  split
  · exact h
  · exact (h.enqueue _).markDead

lemma act (h : Alike B w v) (a : Act S) : Alike B (C.act b w a) (C.act e v a) := by
  cases a with
  | send f => exact h.enqueue f
  | close => exact h.closeGracefully

lemma respond (h : Alike B w v) (x : Call S) : Alike B (C.respond b x w) (C.respond e x v) := by
  have hx := h.called x
  unfold Client.respond
  rw [hx.calls]
  generalize C.acts (v.called x).calls = as
  revert hx
  generalize w.called x = w'
  generalize v.called x = v'
  intro hx
  induction as generalizing w' v' with
  | nil => exact hx
  | cons a as ih => exact ih _ _ (hx.act a)

lemma mono {D : Intake S → Intake S → Prop} (h : Alike B w v) (hB : ∀ x y, B x y → D x y) :
    Alike D w v := ⟨h.calls, h.body, hB _ _ h.intake⟩

end Alike

end Multimaster
