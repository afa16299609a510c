import Multimaster.Connection.Interest

/-! The outbound queue of a connection: how much it can hold. -/

namespace Multimaster

variable {S : Suite} {P : Play S} {A : Frame S → Prop} {s t : Track S}

section Cap

variable (P) in
def helloBytes (c : PeerConnection S) : ℕ := (encode (.hello c.inbound (P.env.self.hello c))).length

def PeerConnection.confirmBytes (c : PeerConnection S) : ℕ := (encode c.authConfirm).length

lemma helloBytes_eq {c d : PeerConnection S} (h : d.secure = c.secure) : helloBytes P d = helloBytes P c := by
  unfold helloBytes
  rw [encode_length, encode_length]
  simp only [Frame.size, encodeBody, encodeHelloBody, LocalIdentity.hello, h, List.length_append, List.length_cons,
    List.length_nil, networkOrder_length]
  have hkey (b : S.Block 32) : (putBlock b).length = 32 := putBlock_length b
  split_ifs <;> simp [hkey]

lemma confirmBytes_eq {c d : PeerConnection S} (h : d.useIdentity = c.useIdentity) :
    d.confirmBytes = c.confirmBytes := by
  unfold PeerConnection.confirmBytes PeerConnection.authConfirm
  rw [encode_length, encode_length, h]
  simp only [Frame.size, encodeBody, encodeAuthConfirmBody, List.length_append, putBlock_length]
  split_ifs <;> simp [putBlock_length]

variable (P) in
def allowance (c : PeerConnection S) : ℕ :=
  match c.state with
  | .connectingOut => 0
  | .handshaking => helloBytes P c
  | .awaitingConfirm | .established | .dead => helloBytes P c + c.confirmBytes

lemma allowance_le (c : PeerConnection S) : allowance P c ≤ helloBytes P c + c.confirmBytes := by
  unfold allowance
  split <;> omega

variable (P) in
def Room (c : PeerConnection S) : Phase → Prop
  | .born | .connecting | .hello =>
    c.state ≠ .connectingOut ∧ c.outBuf.length ≤ P.env.cfg.maxOutboundQueueBytes
  | .confirm =>
    c.state = .awaitingConfirm ∧ c.outBuf.length ≤ P.env.cfg.maxOutboundQueueBytes + helloBytes P c
  | .flush | .rest => c.outBuf.length ≤ P.env.cfg.maxOutboundQueueBytes + allowance P c

variable (P) in
structure Capped (s : Track S) : Prop where
  mode : s.conn.secure = P.env.self.secure
  room : Room P s.conn s.phase
  past : ∀ c ∈ s.past,
    c.outBuf.length ≤ P.env.cfg.maxOutboundQueueBytes + helloBytes P c + c.confirmBytes

variable {c d : PeerConnection S} {φ : Phase}

lemma Room.bounded (h : Room P c φ) :
    c.outBuf.length ≤ P.env.cfg.maxOutboundQueueBytes + helloBytes P c + c.confirmBytes := by
  have hle := allowance_le (P := P) c
  cases φ with
  | born | connecting | hello | confirm => exact h.2.trans (by omega)
  | flush | rest => exact le_trans h (by omega)

lemma Room.congr (h : Room P c φ) (hst : d.state = c.state) (hsec : d.secure = c.secure)
    (hid : d.useIdentity = c.useIdentity) (hbuf : d.outBuf.length ≤ c.outBuf.length) : Room P d φ := by
  have hall : allowance P d = allowance P c := by
    rw [allowance, allowance, hst, helloBytes_eq hsec, confirmBytes_eq hid]
  cases φ with
  | born | connecting | hello => exact ⟨by rw [hst]; exact h.1, hbuf.trans h.2⟩
  | confirm => exact ⟨hst.trans h.1, by rw [helloBytes_eq hsec]; exact hbuf.trans h.2⟩
  | flush | rest =>
    change _ ≤ _ + allowance P d
    rw [hall]
    exact hbuf.trans h

lemma Room.ready (h : Room P c φ) (hφ : φ.ready = true) :
    c.outBuf.length ≤ P.env.cfg.maxOutboundQueueBytes + allowance P c := by
  cases φ with
  | flush | rest => exact h
  | born | connecting | hello | confirm => cases hφ

namespace Capped

lemma set {l : List (Callback S)} (h : Capped P s) (hsec : d.secure = s.conn.secure) (hr : Room P d φ) :
    Capped P { s.set d φ with log := l } where
  mode := hsec.trans h.mode
  room := hr
  past c hc := by
    rcases List.mem_append.mp hc with hc | hc
    · exact h.past c hc
    · rw [List.mem_singleton.mp hc]
      exact hr.bounded

lemma keep (h : Capped P s) (hst : d.state = s.conn.state) (hsec : d.secure = s.conn.secure)
    (hid : d.useIdentity = s.conn.useIdentity) (hbuf : d.outBuf.length ≤ s.conn.outBuf.length) :
    Capped P (s.set d s.phase) := h.set hsec (h.room.congr hst hsec hid hbuf)

lemma turn (h : Capped P s) (hr : Room P s.conn φ) : Capped P { s with phase := φ } := ⟨h.mode, hr, h.past⟩

end Capped

end Cap

def Play.Fits (P : Play S) (f : Frame S) : Prop :=
  ∀ c : PeerConnection S, c.secure = P.env.self.secure → (sealFrame c f).1.length ≤ P.env.cfg.maxOutboundQueueBytes

lemma Stroke.capped (hA : P.env.cfg.overflowPolicy = .dropOldest → ∀ f, A f → P.Fits f) (h : Stroke P A s t)
    (hs : Capped P s) : Capped P t := by
  have hroom := hs.room
  have gears {c d : PeerConnection S} (h : d.gear = c.gear) : d.state = c.state ∧ d.secure = c.secure ∧
      d.useIdentity = c.useIdentity ∧ d.outBuf = c.outBuf :=
    ⟨congrArg (·.2.1) h, congrArg (·.2.2.1) h, congrArg (·.2.2.2.2.2.2.2.2.2) h, congrArg (·.2.2.2.2.2.2.2.2.1) h⟩
  cases h with
  | tend d h =>
    obtain ⟨hst, hsec, hid, hbuf⟩ := gears h
    exact hs.keep hst hsec hid (by rw [hbuf])
  | dial hφ hst =>
    rw [hφ] at hroom
    exact hs.set rfl (hroom.congr rfl rfl rfl le_rfl)
  | accept hφ =>
    rw [hφ] at hroom
    exact hs.set rfl (φ := .hello) hroom
  | unlisted k hφ hk =>
    rw [hφ] at hroom
    exact hs.turn (φ := .hello) hroom
  | connect hφ hd hst =>
    rw [hφ] at hroom
    refine hs.set rfl (φ := .connecting) ⟨by simp, ?_⟩
    simpa [Room, allowance, hst] using hroom
  | listen hφ hr =>
    rw [hφ] at hroom
    exact hs.set rfl (φ := .hello) hroom
  | deaf hφ hk =>
    rw [hφ] at hroom
    exact hs.turn (φ := .hello) hroom
  | hello d hφ h =>
    rw [hφ] at hroom
    have hst : d.state = s.conn.state := (gears h).1
    have hsec : d.secure = s.conn.secure := (gears h).2.1
    refine hs.set hsec (φ := .flush) ?_
    change d.outBuf.length ≤ _ + allowance P d
    have hall : helloBytes P s.conn ≤ allowance P d := by
      rw [allowance, hst, ← helloBytes_eq hsec]
      cases hcon : s.conn.state with
      | connectingOut => exact absurd hcon hroom.1
      | handshaking => exact le_rfl
      | awaitingConfirm | established | dead => exact Nat.le_add_right ..
    rw [(gears h).2.2.2, List.length_append]
    exact Nat.add_le_add hroom.2 hall
  | greet d u hφ hd hst hsec h =>
    rw [hφ] at hroom
    have hsec' : d.secure = s.conn.secure := (gears h).2.1
    refine hs.set hsec' (φ := .confirm) ⟨(gears h).1, ?_⟩
    rw [(gears h).2.2.2, helloBytes_eq hsec']
    simpa [Room, allowance, hst] using hroom
  | confirm d hφ h =>
    rw [hφ] at hroom
    have hst : d.state = s.conn.state := (gears h).1
    have hsec : d.secure = s.conn.secure := (gears h).2.1
    have hid : d.useIdentity = s.conn.useIdentity := (gears h).2.2.1
    refine hs.set hsec (φ := .flush) ?_
    change d.outBuf.length ≤ _ + allowance P d
    have hall : allowance P d = helloBytes P s.conn + s.conn.confirmBytes := by
      rw [allowance, hst, hroom.1, helloBytes_eq hsec, confirmBytes_eq hid]
    rw [hall, (gears h).2.2.2, List.length_append, ← Nat.add_assoc]
    exact Nat.add_le_add hroom.2 le_rfl
  | put d c f hφ hf hd hc hfit h =>
    obtain ⟨hst, hsec, hid, hbuf⟩ := gears h
    refine hs.set hsec (φ := .flush) ?_
    change d.outBuf.length ≤ _ + allowance P d
    have hlen : d.outBuf.length ≤ P.env.cfg.maxOutboundQueueBytes := by
      rw [hbuf, List.length_append]
      rcases hfit with hfit | ⟨hempty, hpol⟩
      · exact hfit
      · rw [hempty, List.length_nil, Nat.zero_add]
        exact hA hpol f hf c (hc.trans hs.mode)
    exact hlen.trans (Nat.le_add_right ..)
  | clear hφ hp => exact hs.keep rfl rfl rfl (Nat.zero_le _)
  | flushed d a b hφ hb h =>
    rw [hφ] at hroom
    obtain ⟨hst, hsec, hid, hbuf⟩ := gears h
    refine hs.set hsec (hroom.congr hst hsec hid ?_)
    rw [hbuf, hb, List.length_append]
    exact Nat.le_add_left ..
  | rearm hφ hd hr =>
    rw [hφ] at hroom
    exact hs.set rfl (φ := .rest) hroom
  | still hφ hk =>
    rw [hφ] at hroom
    exact hs.turn (φ := .rest) hroom
  | relax hφ =>
    rw [hφ] at hroom
    exact hs.turn (φ := .flush) hroom
  | die hφ hd =>
    refine hs.set rfl (φ := .rest) ?_
    exact (hroom.ready hφ).trans (Nat.add_le_add_left (allowance_le _) _)
  | establish x hφ hd hst =>
    rw [hφ] at hroom
    refine hs.set rfl (φ := .rest) ?_
    exact le_trans hroom (Nat.add_le_add_left (allowance_le _) _)
  | message x hx hφ hd hst => exact ⟨hs.mode, hs.room, hs.past⟩

def Uttered (P : Play S) (es : List (Cue S)) (f : Frame S) : Prop :=
  f = .heartbeat ∨ f = .goodbye ∨ (∃ n p, .send p f ∈ P.acts n) ∨ ∃ p, .wish (.send p f) ∈ es

theorem outbound_bounded (P : Play S) (k : ℕ) (es : List (Cue S)) (p : Ptr)
    (h : P.env.cfg.overflowPolicy = .dropOldest → ∀ f, Uttered P es f → P.Fits f) (c : PeerConnection S)
    (hc : c = (Scene.run P k es).conns p ∨ c ∈ (Scene.run P k es).past p) :
    c.outBuf.length ≤ P.env.cfg.maxOutboundQueueBytes +
      (encode (.hello c.inbound (P.env.self.hello c))).length + (encode c.authConfirm).length := by
  have hcap : Capped P ((Scene.run P k es).track p ((Scene.run P k es).phase P p)) := by
    refine scene_induction (A := Uttered P es) ⟨.inl rfl, .inr (.inl rfl)⟩
      (fun n a ha => ⟨fun q f hq => .inr (.inr (.inl ⟨n, q, hq ▸ ha⟩))⟩) (fun e he => ?_) ?_
      fun g hs => g.capped h hs
    · cases e with
      | construct | io => trivial
      | wish a => exact ⟨fun q f hq => .inr (.inr (.inr ⟨q, hq ▸ he⟩))⟩
    · refine ⟨rfl, ?_, fun c hc => ?_⟩
      · dsimp only
        split_ifs with hi
        · exact ⟨by simp [Play.fresh, hi], Nat.zero_le _⟩
        · exact Nat.zero_le _
      · rw [List.mem_singleton.mp hc]
        exact Nat.zero_le _
  rcases hc with rfl | hc
  · exact hcap.room.bounded
  · exact hcap.past c hc

/-- Under `DropOldest` the greeting makes room for a heartbeat. -/
def Play.beating : Play Suite.transparent :=
  { Play.clogged .dropOldest [] with acts := fun _ => [.send 0 .heartbeat] }

lemma beating_fits (f : Frame Suite.transparent) (h : Uttered Play.beating accepted f) : Play.beating.Fits f := by
  intro c hc
  have hplain : (sealFrame c f).1 = encode f := by
    have hsec : c.secure = false := hc
    unfold sealFrame
    rw [hsec]
    split <;> rfl
  have hf : f = .heartbeat ∨ f = .goodbye := by
    rcases h with rfl | rfl | ⟨n, p, hp⟩ | ⟨p, hp⟩
    · exact .inl rfl
    · exact .inr rfl
    · cases List.mem_singleton.mp hp
      exact .inl rfl
    · simp [accepted] at hp
  rw [hplain]
  rcases hf with rfl | rfl <;> decide

theorem outbound_bounded_clogged :
    (let P := Play.clogged .dropNewest (List.replicate 60 0)
     let c := (Scene.run P 1 accepted).conns 0
     c.outBuf.length ≤ P.env.cfg.maxOutboundQueueBytes +
       (encode (.hello c.inbound (P.env.self.hello c))).length + (encode c.authConfirm).length) ∧
    let P := Play.beating
    let c := (Scene.run P 1 accepted).conns 0
    c.outBuf = encode (S := Suite.transparent) .heartbeat ∧ c.outBuf.length ≤ P.env.cfg.maxOutboundQueueBytes +
      (encode (.hello c.inbound (P.env.self.hello c))).length + (encode c.authConfirm).length :=
  ⟨outbound_bounded (Play.clogged .dropNewest (List.replicate 60 0)) 1 accepted 0 (fun h => by cases h) _ (.inl rfl),
    by decide +kernel, outbound_bounded Play.beating 1 accepted 0 (fun _ => beating_fits) _ (.inl rfl)⟩

theorem outbound_overfull :
    let P := Play.clogged .dropOldest (List.replicate 60 0)
    let c := (Scene.run P 1 accepted).conns 0
    P.env.cfg.maxOutboundQueueBytes + (encode (.hello c.inbound (P.env.self.hello c))).length +
      (encode c.authConfirm).length < c.outBuf.length := by
  decide +kernel

end Multimaster
