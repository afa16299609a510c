import Multimaster.Connection.Script

/-! The stages of an honest conversation, and what sending changes in them. -/

namespace Multimaster

variable {S : Suite}

section Stages

variable {O : Owner S} (X : Meeting O)

structure Greet (due : Due S) (c : PeerConnection S) : Prop where
  state : c.state = .handshaking
  keys : c.ephKeys = X.keys
  plain : c.plainBuf = []
  read : c.plainRead = 0
  heard : c.heard = c.inBuf
  next : due = none ∧ c.dispatched = [] ∨
    due = some (.inBuf, X.theirs.hello, (encode X.theirs.hello).length) ∧
      c.dispatched = [(.inBuf, X.theirs.hello)] ∧ encode X.theirs.hello <+: c.inBuf
  secure : c.secure = true

structure Await (due : Due S) (c : PeerConnection S) : Prop where
  state : c.state = .awaitingConfirm
  keys : c.ephKeys = X.keys
  sess : c.sess = some X.result.session
  tag : c.expectedPeerTag = X.result.expectedPeerTag
  peerHello : c.peerHello = X.peer
  peerId : c.peerId = X.peer.nodeId
  use : c.useIdentity = (O.env.self.hasIdentity && X.peer.hasIdentity)
  plain : c.plainBuf = []
  read : c.plainRead = (encode X.theirs.hello).length
  heard : c.heard = encode X.theirs.hello ++ c.inBuf
  next : due = none ∧ c.dispatched = [(.inBuf, X.theirs.hello)] ∨
    due = some (.inBuf, X.theirs.confirm, (encode X.theirs.confirm).length) ∧
      c.dispatched = [(.inBuf, X.theirs.hello), (.inBuf, X.theirs.confirm)] ∧
      encode X.theirs.confirm <+: c.inBuf
  secure : c.secure = true

structure Talk (fs gs rest : List (Frame S)) (due : Due S) (c : PeerConnection S) : Prop where
  state : c.state = .established
  secure : c.secure = true
  sess : ∃ s, c.sess = some s ∧ s.txKey = X.mine.key ∧ s.rxKey = X.theirs.key ∧
    s.rxCtr = UInt64.ofNat gs.length ∧ (c.overflowed = false → s.txCtr = UInt64.ofNat fs.length)
  heard : c.heard = (X.theirs.items gs).flatMap Sent.wire ++ c.inBuf
  clear : ∀ f ∈ rest, f.Traffic O.env.cfg.maxMessageBytes
  next : due = none ∧ c.plainBuf = rest.flatMap encode ∨
    ∃ f, f.Traffic O.env.cfg.maxMessageBytes ∧ due = some (.plainBuf, f, (encode f).length) ∧
      c.plainBuf = encode f ++ rest.flatMap encode

inductive Stage (T : List (Sent S)) (due : Due S) (c : PeerConnection S) (told : List (Hello S)) : Prop where
  | greeting (hs : c.sent = [.plain X.mine.hello]) (hr : fromRecords c.dispatched = []) (ht : told = [])
      (live : c.dead = false → Greet X due c)
  | awaiting (hs : c.sent = [.plain X.mine.hello, .plain X.mine.confirm])
      (hr : fromRecords c.dispatched = []) (ht : told = []) (live : c.dead = false → Await X due c)
  | talking (fs gs rest later : List (Frame S)) (hf : ∀ f ∈ fs, f.Traffic O.env.cfg.maxMessageBytes)
      (hs : c.overflowed = false → c.sent = X.mine.items fs) (hr : fromRecords c.dispatched ++ rest = gs)
      (hT : T = X.theirs.items (gs ++ later)) (ht : told = [X.peer])
      (hp : c.plainRead = (encode X.theirs.hello).length + (encode X.theirs.confirm).length)
      (live : c.dead = false → Talk X fs gs rest due c)

variable {X} {T : List (Sent S)} {due : Due S} {c d : PeerConnection S} {told : List (Hello S)}

lemma Greet.congr (hc : d.ledger = c.ledger) (h : Greet X due c) : Greet X due d := by
  have h : Greet X due c.ledger := ⟨h.1, h.2, h.3, h.4, h.5, h.6, h.7⟩
  rw [← hc] at h
  exact ⟨h.1, h.2, h.3, h.4, h.5, h.6, h.7⟩

lemma Await.congr (hc : d.ledger = c.ledger) (h : Await X due c) : Await X due d := by
  have h : Await X due c.ledger := ⟨h.1, h.2, h.3, h.4, h.5, h.6, h.7, h.8, h.9, h.10, h.11, h.12⟩
  rw [← hc] at h
  exact ⟨h.1, h.2, h.3, h.4, h.5, h.6, h.7, h.8, h.9, h.10, h.11, h.12⟩

lemma Talk.congr {fs gs rest : List (Frame S)} (hc : d.ledger = c.ledger) (h : Talk X fs gs rest due c) :
    Talk X fs gs rest due d := by
  have h : Talk X fs gs rest due c.ledger := ⟨h.1, h.2, h.3, h.4, h.5, h.6⟩
  rw [← hc] at h
  exact ⟨h.1, h.2, h.3, h.4, h.5, h.6⟩

lemma Stage.congr (hc : d.ledger = c.ledger) (h : Stage X T due c told) : Stage X T due d told := by
  have hs : d.sent = c.sent := ledger_field hc PeerConnection.sent fun _ => rfl
  have hd : d.dispatched = c.dispatched := ledger_field hc PeerConnection.dispatched fun _ => rfl
  have hp : d.plainRead = c.plainRead := ledger_field hc PeerConnection.plainRead fun _ => rfl
  have ho : d.overflowed = c.overflowed := ledger_field hc PeerConnection.overflowed fun _ => rfl
  have ha : d.dead = c.dead := ledger_field hc PeerConnection.dead fun _ => rfl
  cases h with
  | greeting h₁ h₂ h₃ live =>
    exact .greeting (hs.trans h₁) (by rw [hd, h₂]) h₃ fun h => (live (ha ▸ h)).congr hc
  | awaiting h₁ h₂ h₃ live =>
    exact .awaiting (hs.trans h₁) (by rw [hd, h₂]) h₃ fun h => (live (ha ▸ h)).congr hc
  | talking fs gs rest later hf h₁ h₂ h₃ h₄ h₅ live =>
    exact .talking fs gs rest later hf (fun h => hs.trans (h₁ (ho ▸ h))) (by rw [hd, h₂]) h₃ h₄ (hp.trans h₅)
      fun h => (live (ha ▸ h)).congr hc

lemma Stage.killed (h : Stage X T due c told) (hd : d.dead = true) (hs : d.sent = c.sent)
    (hr : d.dispatched = c.dispatched) (hp : d.plainRead = c.plainRead) (ho : d.overflowed = c.overflowed)
    (due' : Due S) : Stage X T due' d told := by
  have gone {p : Prop} (ha : d.dead = false) : p := by
    rw [hd] at ha
    cases ha
  cases h with
  | greeting h₁ h₂ h₃ => exact .greeting (hs.trans h₁) (by rw [hr, h₂]) h₃ gone
  | awaiting h₁ h₂ h₃ => exact .awaiting (hs.trans h₁) (by rw [hr, h₂]) h₃ gone
  | talking fs gs rest later hf h₁ h₂ h₃ h₄ h₅ =>
    exact .talking fs gs rest later hf (fun h => hs.trans (h₁ (ho ▸ h))) (by rw [hr, h₂]) h₃ h₄ (hp.trans h₅) gone

lemma Stage.flush (h : Stage X T due c told) (a b : Bytes) :
    Stage X T due { c with outBuf := b, written := c.written ++ a } told := by
  cases h with
  | greeting hs hr ht live =>
    exact .greeting hs hr ht fun hd => have g := live hd; ⟨g.1, g.2, g.3, g.4, g.5, g.6, g.7⟩
  | awaiting hs hr ht live =>
    refine .awaiting hs hr ht fun hd => ?_
    have g := live hd
    exact ⟨g.1, g.2, g.3, g.4, g.5, g.6, g.7, g.8, g.9, g.10, g.11, g.12⟩
  | talking fs gs rest later hf hs hr hT ht hp live =>
    exact .talking fs gs rest later hf hs hr hT ht hp fun hd => have g := live hd; ⟨g.1, g.2, g.3, g.4, g.5, g.6⟩

lemma Stage.established (h : Stage X T due c told) (hd : c.dead = false) (hst : c.state = .established) :
    ∃ fs gs rest later, (∀ f ∈ fs, f.Traffic O.env.cfg.maxMessageBytes) ∧
      (c.overflowed = false → c.sent = X.mine.items fs) ∧ fromRecords c.dispatched ++ rest = gs ∧
      T = X.theirs.items (gs ++ later) ∧ told = [X.peer] ∧
      c.plainRead = (encode X.theirs.hello).length + (encode X.theirs.confirm).length ∧
      Talk X fs gs rest due c := by
  cases h with
  | greeting hs hr ht live =>
    rw [(live hd).state] at hst
    cases hst
  | awaiting hs hr ht live =>
    rw [(live hd).state] at hst
    cases hst
  | talking fs gs rest later hf hs hr hT ht hp live =>
    exact ⟨fs, gs, rest, later, hf, hs, hr, hT, ht, hp, live hd⟩

lemma sealFrame_established {s : SecureSession S} (hs : c.sess = some s) (hsec : c.secure = true)
    (hst : c.state = .established) (f : Frame S) :
    (sealFrame c f).2 = (.record s.txKey s.txCtr f, some { s with txCtr := s.txCtr + 1 }) := by
  simp [sealFrame, hs, hsec, hst, SecureSession.seal]

lemma Stage.put (h : Stage X T due c told) (hd : c.dead = false) (hst : c.state = .established) {f : Frame S}
    (hf : f.Traffic O.env.cfg.maxMessageBytes) : Stage X T due (c.put f) told := by
  obtain ⟨fs, gs, rest, later, hfs, hs, hr, hT, ht, hp, g⟩ := h.established hd hst
  obtain ⟨s, hsess, htx, hrx, hctr, hout⟩ := g.sess
  have hseal := sealFrame_established hsess g.secure hst f
  refine .talking (fs ++ [f]) gs rest later ?_ ?_ hr hT ht hp fun _ => ⟨hst, g.secure, ?_, g.heard, g.clear, g.next⟩
  · intro x hx
    rcases List.mem_append.mp hx with hx | hx
    · exact hfs x hx
    · rw [List.mem_singleton.mp hx]
      exact hf
  · intro ho
    have hitem : (sealFrame c f).2.1 = .record X.mine.key (UInt64.ofNat fs.length) f := by
      rw [hseal, htx, hout ho]
    rw [PeerConnection.put, hs ho, hitem, Script.items_append]
    rfl
  · refine ⟨{ s with txCtr := s.txCtr + 1 }, congrArg Prod.snd hseal, htx, hrx, hctr, fun ho => ?_⟩
    change s.txCtr + 1 = UInt64.ofNat (fs ++ [f]).length
    rw [hout ho, List.length_append, List.length_singleton, UInt64.ofNat_add]
    rfl

lemma Stage.overflow (h : Stage X T due c told) (hd : c.dead = false) (hst : c.state = .established)
    (f : Frame S) (out : Bytes) (sent : List (Sent S)) :
    Stage X T due { c with sess := (sealFrame c f).2.2, outBuf := out, sent, overflowed := true } told := by
  obtain ⟨fs, gs, rest, later, hfs, hs, hr, hT, ht, hp, g⟩ := h.established hd hst
  obtain ⟨s, hsess, htx, hrx, hctr, hout⟩ := g.sess
  have hseal := sealFrame_established hsess g.secure hst f
  refine .talking fs gs rest later hfs nofun hr hT ht hp fun _ => ⟨hst, g.secure, ?_, g.heard, g.clear, g.next⟩
  exact ⟨{ s with txCtr := s.txCtr + 1 }, congrArg Prod.snd hseal, htx, hrx, hctr, nofun⟩

lemma Stage.took (h : Stage X T none c told) (l : Bytes) : Stage X T none (c.took l) told := by
  cases h with
  | greeting hs hr ht live =>
    refine .greeting hs hr ht fun hd => ?_
    have g := live hd
    exact ⟨g.1, g.2, g.3, g.4, congrArg (· ++ l) g.5, .inl (g.6.resolve_right nofun), g.7⟩
  | awaiting hs hr ht live =>
    refine .awaiting hs hr ht fun hd => ?_
    have g := live hd
    refine ⟨g.1, g.2, g.3, g.4, g.5, g.6, g.7, g.8, g.9, ?_, .inl (g.11.resolve_right nofun), g.12⟩
    change c.heard ++ l = _ ++ (c.inBuf ++ l)
    rw [g.heard, List.append_assoc]
  | talking fs gs rest later hf hs hr hT ht hp live =>
    refine .talking fs gs rest later hf hs hr hT ht hp fun hd => ?_
    have g := live hd
    refine ⟨g.1, g.2, g.3, ?_, g.5, g.6⟩
    change c.heard ++ l = _ ++ (c.inBuf ++ l)
    rw [g.heard, List.append_assoc]

end Stages

end Multimaster
