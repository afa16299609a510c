import Multimaster.Connection.Admitting
import Multimaster.Connection.Endpoint

/-! A connection served by a listener whose reactions depend only on the calls it has had, over a
socket whose answers to `send` depend only on what was sent. -/

namespace Multimaster

variable {S : Suite}

inductive Call (S : Suite) where
  | handshake (h : Hello S)
  | data (d : DataView)
  | membership (m : MembershipRecord)
  | identity (r : IdentityRecord S)
  | closed
  | error (e : Error)

structure Client (S : Suite) where
  env : Env S
  acts : List (Call S) → List (Act S)

structure Served (S : Suite) where
  conn : PeerConnection S
  calls : List (Call S) := []

def Served.called (x : Call S) (w : Served S) : Served S := { w with calls := w.calls ++ [x] }

/-- What one `do_read` gets from the socket, up to `EAGAIN`, and the time during it. -/
structure Batch where
  clock : ℕ → ℤ
  answers : List RecvAnswer
  again : (recvLoop answers).2 = none

def Batch.bytes (b : Batch) : Bytes := (recvLoop b.answers).1

variable (C : Client S) (b : Batch)

def Client.sink : Sink S (Served S) where
  env := { C.env with oracle := { C.env.oracle with clock := b.clock, recv := fun _ => b.answers } }
  conn w _ := w.conn
  setConn _ c w := { w with conn := c }
  pos w := w.conn.sent.length + w.conn.dispatched.length
  bump w := w
  onPeerClosed _ w := w.called .closed
  reportError e w := w.called (.error e)

def Client.act (w : Served S) : Act S → Served S
  | .send f => sendRaw (C.sink b) 0 f w
  | .close => closeGracefully (C.sink b) 0 w

def Client.respond (x : Call S) (w : Served S) : Served S :=
  (C.acts (w.called x).calls).foldl (C.act b) (w.called x)

def Client.listener : Listener S (Served S) where
  toSink := C.sink b
  onPeerHandshake _ h := C.respond b (.handshake h)
  onPeerData _ d := C.respond b (.data d)
  onPeerMembership _ m := C.respond b (.membership m)
  onPeerIdentity _ r := C.respond b (.identity r)

def Client.read (w : Served S) : Served S := onIoEvents (C.listener b) 0 false false true w

section Steady

variable {C : Client S} {b : Batch}

lemma Client.fail_dead (cat : ErrorCategory) (err : ℤ) (what : String)
    (w : Served S) : (fail (C.sink b) 0 cat err what w).conn.dead = true := by
  unfold fail markDead
  extract_lets c w₁ w₂
  split_ifs
  · assumption
  · assumption
  · rfl

structure Steady (w v : Served S) : Prop where
  secure : v.conn.secure = w.conn.secure
  dead : w.conn.dead = true → v.conn.dead = true
  established : w.conn.state = .established → v.conn.dead = true ∨ v.conn.state = .established

namespace Steady

lemma refl (w : Served S) : Steady w w := ⟨rfl, id, .inr⟩

lemma trans {w v u : Served S} (h : Steady w v) (k : Steady v u) : Steady w u where
  secure := k.secure.trans h.secure
  dead hd := k.dead (h.dead hd)
  established he := (h.established he).elim (fun hd => .inl (k.dead hd)) k.established

lemma of_eq {w v : Served S} (hs : v.conn.secure = w.conn.secure) (hd : v.conn.dead = w.conn.dead)
    (he : v.conn.state = w.conn.state) : Steady w v where
  secure := hs
  dead h := hd.trans h
  established h := .inr (he.trans h)

lemma fail (w : Served S) (cat : ErrorCategory) (err : ℤ) (what : String) :
    Steady w (fail (C.sink b) 0 cat err what w) where
  secure := by
    unfold Multimaster.fail markDead
    extract_lets c w₁ w₂
    have h₂ : w₂.conn.secure = w.conn.secure := by
      unfold w₂
      split <;> rfl
    split_ifs
    · rfl
    · exact h₂
    · exact h₂
  dead _ := Client.fail_dead cat err what w
  established _ := .inl (Client.fail_dead cat err what w)

lemma respects : (C.sink b).Respects Steady where
  refl := refl
  trans := trans
  bump := refl
  touch w _ f hf := by
    have h := hf w.conn
    exact of_eq (h.field PeerConnection.secure fun _ => rfl) (h.field PeerConnection.dead fun _ => rfl)
      (h.field PeerConnection.state fun _ => rfl)
  report w _ := ⟨rfl, id, .inr⟩
  fail w _ cat err what _ := fail w cat err what

lemma act (w : Served S) (a : Act S) : Steady w (C.act b w a) := by
  cases a with
  | send f => exact respects.enqueue 0 f w
  | close =>
    refine (respects (C := C) (b := b)).closeGracefully 0 (fun w => ?_) w
    unfold markDead
    split
    · exact refl _
    · exact ⟨rfl, fun _ => rfl, fun _ => .inl rfl⟩

lemma respond (x : Call S) (w : Served S) : Steady w (C.respond b x w) := by
  have h : Steady w (w.called x) := ⟨rfl, id, .inr⟩
  unfold Client.respond
  generalize C.acts (w.called x).calls = as
  generalize w.called x = v at h
  induction as generalizing v with
  | nil => exact h
  | cons a as ih => exact ih _ (h.trans (act v a))

lemma consume (src : Source) (n : ℕ) (w : Served S) :
    Steady w ((C.sink b).modify 0 (consume src n) w) := by
  cases src <;> exact of_eq rfl rfl rfl

lemma establish (x : Hello S) (w : Served S) : Steady w (establish (C.listener b) 0 x w).2 := by
  have h : Steady w ((C.sink b).modify 0 (fun c => { c with state := .established }) w) :=
    ⟨rfl, id, fun _ => .inr rfl⟩
  exact h.trans (respond (.handshake x) _)

lemma handleHello (x : Hello S) (src : Source) (n : ℕ) (w : Served S) :
    Steady w (handleHello (C.listener b) 0 x n src w).2 := by
  unfold Multimaster.handleHello
  extract_lets own c w₁
  have h₁ : Steady w w₁ := by
    unfold w₁
    cases src <;> exact of_eq rfl rfl rfl
  split_ifs with hst
  · exact consume src n w
  · exact fail w _ _ _
  · exact fail w _ _ _
  · exact h₁.trans (establish x w₁)
  · exact h₁.trans (fail w₁ _ _ _)
  · split
    · exact h₁.trans (fail w₁ _ _ _)
    · rename_i hr _
      have hne : w.conn.state ≠ .established := by
        have hs : w.conn.state = .handshaking := not_not.mp hst
        rw [hs]
        nofun
      unfold awaitConfirm
      extract_lets useIdentity w₂ w₃
      have h₂ : Steady w w₂ := ⟨h₁.secure, h₁.dead, fun he => (hne he).elim⟩
      exact h₂.trans (respects.sendAuthConfirm 0 w₂)

lemma handleAuthConfirm (tag : S.Block 32) (sig : Option (S.Block 64)) (src : Source) (n : ℕ)
    (w : Served S) : Steady w (handleAuthConfirm (C.listener b) 0 tag sig n src w).2 := by
  unfold Multimaster.handleAuthConfirm
  extract_lets c w₁
  have h₁ : Steady w w₁ := consume src n w
  split_ifs
  · exact fail w _ _ _
  · exact h₁.trans (fail w₁ _ _ _)
  all_goals
    split
    · exact h₁.trans (fail w₁ _ _ _)
    · exact h₁.trans (establish _ w₁)

lemma dispatch (f : Frame S) (src : Source) (n : ℕ) (w : Served S) :
    Steady w (dispatch (C.listener b) 0 f n src w).2 := by
  unfold Multimaster.dispatch
  extract_lets now w₁ alive
  have h₁ : Steady w w₁ := of_eq rfl rfl rfl
  cases f with
  | hello ack x => exact h₁.trans (handleHello x src n w₁)
  | authConfirm tag sig => exact h₁.trans (handleAuthConfirm tag sig src n w₁)
  | heartbeat => exact h₁.trans (consume src n w₁)
  | goodbye => exact (h₁.trans (consume src n w₁)).trans (fail _ _ _ _)
  | data d =>
    dsimp only
    split
    · exact h₁.trans (fail w₁ _ _ _)
    · have h₂ := h₁.trans (respond (C := C) (b := b) (.data d) w₁)
      split
      · exact h₂.trans (consume src n _)
      · exact h₂
  | membership m =>
    dsimp only
    split
    · exact h₁.trans (fail w₁ _ _ _)
    · exact (h₁.trans (consume src n w₁)).trans (respond (.membership m) _)
  | identity r =>
    dsimp only
    split
    · exact h₁.trans (fail w₁ _ _ _)
    · exact (h₁.trans (consume src n w₁)).trans (respond (.identity r) _)

end Steady

end Steady

end Multimaster
