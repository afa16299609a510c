import Multimaster.Connection.Stages

/-! What an end reads at each stage of an honest conversation. -/

namespace Multimaster

variable {S : Suite}

section Stages

variable {O : Owner S} {X : Meeting O} {T : List (Sent S)} {due : Due S} {c d : PeerConnection S}
  {told : List (Hello S)}

section Reading

variable (hS : S.Lawful) (hM : O.env.cfg.maxMessageBytes + 100 ≤ 2 ^ 32)
  (hT : Spoken X.theirs (Frame.Traffic O.env.cfg.maxMessageBytes) T) (hh : c.heard <+: T.flatMap Sent.wire)

include hS hM hT hh

lemma Greet.decode (g : Greet X due c) :
    encode X.theirs.hello <+: c.inBuf ∧ tryDecodeFrame c.inBuf O.env.cfg.maxMessageBytes =
        .ok X.theirs.hello (encode X.theirs.hello).length ∨
      tryDecodeFrame (S := S) c.inBuf O.env.cfg.maxMessageBytes = .needMore := by
  obtain ⟨t, ht⟩ := hT.first
  rw [g.heard] at hh
  exact decode_along hS hM X.hello_clear (hh.trans ht)

omit hS hM in
lemma Await.items (g : Await X due c) (hp : encode X.theirs.confirm <+: c.inBuf) :
    ∃ fs, T = X.theirs.items fs := by
  rw [g.heard] at hh
  obtain ⟨t, -, hnil | ⟨fs, -, hfs⟩⟩ := hT.second hh
  · have := hp.length_le
    rw [hnil, encode_length, List.length_nil] at this
    omega
  · exact ⟨fs, hfs⟩

lemma Await.decode (g : Await X due c) :
    encode X.theirs.confirm <+: c.inBuf ∧ tryDecodeFrame c.inBuf O.env.cfg.maxMessageBytes =
        .ok X.theirs.confirm (encode X.theirs.confirm).length ∨
      tryDecodeFrame (S := S) c.inBuf O.env.cfg.maxMessageBytes = .needMore := by
  rw [g.heard] at hh
  obtain ⟨t, ht, -⟩ := hT.second hh
  exact decode_along hS hM X.confirm_clear ht

lemma Talk.open {fs gs rest later : List (Frame S)} (g : Talk X fs gs rest due c)
    (hTg : T = X.theirs.items (gs ++ later)) :
    (∃ x later', later = x :: later' ∧ x.Traffic O.env.cfg.maxMessageBytes ∧
      (Sent.record X.theirs.key (UInt64.ofNat gs.length) x).wire <+: c.inBuf ∧
      readRecord O.env.cfg.maxMessageBytes c.intake.rx c.inBuf =
        .opened (encode x) (Sent.record X.theirs.key (UInt64.ofNat gs.length) x).wire.length) ∨
    readRecord O.env.cfg.maxMessageBytes c.intake.rx c.inBuf = .needMore := by
  obtain ⟨s, hsess, -, hrx, hctr, -⟩ := g.sess
  have hint : c.intake.rx = some (X.theirs.key, UInt64.ofNat gs.length) := by
    simp [PeerConnection.intake, hsess, hrx, hctr]
  rw [g.heard] at hh
  rw [hint]
  rcases hT.next hTg hh with hnil | ⟨x, later', t, hl, hx, hb⟩
  · right
    rw [hnil]
    rfl
  · exact (record_along hS hM hx.size hb).imp_left fun h => ⟨x, later', hl, hx, h.1, h.2⟩

omit hT hh in
lemma Talk.decode {fs gs rest : List (Frame S)} (g : Talk X fs gs rest none c) :
    (∃ x rest', rest = x :: rest' ∧ tryDecodeFrame c.plainBuf O.env.cfg.maxMessageBytes =
        .ok x (encode x).length) ∨
      tryDecodeFrame (S := S) c.plainBuf O.env.cfg.maxMessageBytes = .needMore := by
  rcases g.next with ⟨-, hp⟩ | ⟨f, -, h, -⟩
  · rw [hp]
    cases rest with
    | nil => exact .inr rfl
    | cons x rest' =>
      have hx := g.clear x List.mem_cons_self
      rw [List.flatMap_cons]
      exact (decode_along hS hM hx.toClear List.prefix_rfl).imp_left fun h => ⟨x, rest', rfl, h.2⟩
  · cases h

omit hS hM hT hh in
lemma Greet.due_eq (g : Greet X due c) {src : Source} {f : Frame S} {n : ℕ} (hl : due = some (src, f, n)) :
    src = .inBuf ∧ f = .hello X.ack X.peer ∧ n = (encode X.theirs.hello).length ∧
      c.dispatched = [(.inBuf, X.theirs.hello)] ∧ encode X.theirs.hello <+: c.inBuf := by
  rcases g.next with ⟨h, -⟩ | ⟨h, hd, hp⟩
  · cases h.symm.trans hl
  · cases h.symm.trans hl
    exact ⟨rfl, X.hello_eq, rfl, hd, hp⟩

omit hS hM hT hh in
lemma Await.due_eq (g : Await X due c) {src : Source} {f : Frame S} {n : ℕ} (hl : due = some (src, f, n)) :
    src = .inBuf ∧ f = .authConfirm X.result.expectedPeerTag X.sig ∧
      n = (encode X.theirs.confirm).length ∧
      c.dispatched = [(.inBuf, X.theirs.hello), (.inBuf, X.theirs.confirm)] ∧
      encode X.theirs.confirm <+: c.inBuf := by
  rcases g.next with ⟨h, -⟩ | ⟨h, hd, hp⟩
  · cases h.symm.trans hl
  · cases h.symm.trans hl
    exact ⟨rfl, X.confirm_eq, rfl, hd, hp⟩

omit hS hM hT hh in
lemma Talk.due_eq {fs gs rest : List (Frame S)} (g : Talk X fs gs rest due c) {src : Source} {f : Frame S}
    {n : ℕ} (hl : due = some (src, f, n)) :
    src = .plainBuf ∧ f.Traffic O.env.cfg.maxMessageBytes ∧ n = (encode f).length ∧
      c.plainBuf = encode f ++ rest.flatMap encode := by
  rcases g.next with ⟨h, -⟩ | ⟨f', hf, h, hp⟩
  · cases h.symm.trans hl
  · cases h.symm.trans hl
    exact ⟨rfl, hf, rfl, hp⟩

lemma Greet.blameless (g : Greet X due c) : ¬Blame O due c := by
  have hmode : sealedMode c = false := by simp [sealedMode, g.state]
  intro hb
  cases hb with
  | frame hm he =>
    rcases g.decode hS hM hT hh with h | h
    · cases h.2.symm.trans he
    · cases h.symm.trans he
  | record hm | inner _ hm => cases hmode.symm.trans hm
  | hello src ack h n hl hst why =>
    cases (g.due_eq hl).2.1
    rw [g.keys, X.agreed, X.identity] at why
    simp [X.group, X.secure, g.secure] at why
  | confirm src tag sig n hl => cases (g.due_eq hl).2.1
  | early src f n hl hst hf =>
    rw [(g.due_eq hl).2.1] at hf
    cases hf

lemma Await.blameless (g : Await X due c) : ¬Blame O due c := by
  have hmode : sealedMode c = false := by simp [sealedMode, g.state]
  intro hb
  cases hb with
  | frame hm he =>
    rcases g.decode hS hM hT hh with h | h
    · cases h.2.symm.trans he
    · cases h.symm.trans he
  | record hm | inner _ hm => cases hmode.symm.trans hm
  | hello src ack h n hl => cases (g.due_eq hl).2.1
  | confirm src tag sig n hl why =>
    cases (g.due_eq hl).2.1
    rcases why with h | h | h
    · rcases h with h | h
      · cases h.symm.trans g.secure
      · exact h g.state
    · exact h g.tag.symm
    · split at h
      · rename_i hu
        rw [g.use] at hu
        exact h (X.proved hu c g.peerHello g.peerId g.keys)
      · exact h rfl
  | early src f n hl hst hf =>
    rw [(g.due_eq hl).2.1] at hf
    cases hf

lemma Talk.blameless {fs gs rest later : List (Frame S)} (g : Talk X fs gs rest due c)
    (hTg : T = X.theirs.items (gs ++ later)) : ¬Blame O due c := by
  have hmode : sealedMode c = true := sealedMode_iff.mpr ⟨g.secure, g.state⟩
  intro hb
  cases hb with
  | frame hm => exact nomatch hm.symm.trans hmode
  | record hm h =>
    rcases g.open hS hM hT hh hTg with ⟨x, later', -, -, -, ho⟩ | ho
    · rcases h with h | h <;> exact nomatch ho.symm.trans h
    · rcases h with h | h <;> exact nomatch ho.symm.trans h
  | inner hl hm h =>
    subst hl
    rcases g.decode hS hM with ⟨x, rest', -, ho⟩ | ho
    · exact nomatch ho.symm.trans h
    · exact nomatch ho.symm.trans h
  | hello src ack h n hl hst =>
    rw [g.state] at hst
    cases hst
  | confirm src tag sig n hl => exact (g.due_eq hl).2.1.chat.2 tag sig rfl
  | early src f n hl hst => exact hst g.state

omit hS hM in
lemma Stage.blameless (hS : S.Lawful) (hM : O.env.cfg.maxMessageBytes + 100 ≤ 2 ^ 32)
    (h : Stage X T due c told) (hd : c.dead = false) : ¬Blame O due c := by
  cases h with
  | greeting hs hr ht live => exact (live hd).blameless hS hM hT hh
  | awaiting hs hr ht live => exact (live hd).blameless hS hM hT hh
  | talking fs gs rest later hf hs hr hTg ht hp live => exact (live hd).blameless hS hM hT hh hTg

lemma Stage.absorb (h : Stage X T none c told) (hd : c.dead = false) (hm : sealedMode c = true) {pt : Bytes}
    {n : ℕ} (hr : readRecord O.env.cfg.maxMessageBytes c.intake.rx c.inBuf = .opened pt n) :
    Stage X T none (c.absorb pt n) told := by
  obtain ⟨fs, gs, rest, later, hfs, hs, hgs, hTg, ht, hp, g⟩ := h.established hd (sealedMode_iff.mp hm).2
  rcases g.open hS hM hT hh hTg with ⟨x, later', rfl, hx, hin, ho⟩ | ho
  · cases ho.symm.trans hr
    obtain ⟨s, hsess, htx, hrx, hctr, hout⟩ := g.sess
    have hnext : c.plainBuf = rest.flatMap encode := by
      rcases g.next with ⟨-, hp⟩ | ⟨f, -, hl, -⟩
      · exact hp
      · cases hl
    refine .talking fs (gs ++ [x]) (rest ++ [x]) later' hfs hs ?_ ?_ ht hp fun _ => ⟨g.state, g.secure, ?_, ?_, ?_, ?_⟩
    · rw [← hgs, List.append_assoc]
      rfl
    · rw [hTg, List.append_assoc]
      rfl
    · refine ⟨{ s with rxCtr := s.rxCtr + 1 }, ?_, htx, hrx, ?_, hout⟩
      · change c.sess.map _ = _
        rw [hsess]
        rfl
      · change s.rxCtr + 1 = UInt64.ofNat (gs ++ [x]).length
        rw [hctr, List.length_append, List.length_singleton, UInt64.ofNat_add]
        rfl
    · obtain ⟨t, ht⟩ := hin
      change c.heard = _ ++ c.inBuf.drop _
      rw [g.heard, ← ht, List.drop_left, Script.items_append, List.flatMap_append, List.append_assoc]
      simp [recordsFrom]
    · intro f hf
      rcases List.mem_append.mp hf with hf | hf
      · exact g.clear f hf
      · rw [List.mem_singleton.mp hf]
        exact hx
    · refine .inl ⟨rfl, ?_⟩
      change c.plainBuf ++ encode x = _
      rw [hnext, List.flatMap_append, List.flatMap_singleton]
  · cases ho.symm.trans hr

lemma Stage.stamp (h : Stage X T none c told) (hd : c.dead = false) {src : Source} {f : Frame S} {n : ℕ}
    (hm : sealedMode c = decide (src = .plainBuf))
    (hf : tryDecodeFrame (c.buffer src) O.env.cfg.maxMessageBytes = .ok f n) :
    Stage X T (some (src, f, n)) (c.heardFrame src f) told := by
  have plain (hst : c.state ≠ .established) : src = .inBuf := by
    rw [Bool.eq_false_of_not_eq_true fun h => hst (sealedMode_iff.mp h).2] at hm
    cases src with
    | inBuf => rfl
    | plainBuf => cases hm
  cases h with
  | greeting hs hr ht live =>
    have g := live hd
    obtain rfl := plain (by rw [g.state]; nofun)
    rcases g.decode hS hM hT hh with ⟨hp, ho⟩ | ho
    · cases ho.symm.trans hf
      refine .greeting hs ?_ ht fun _ => ⟨g.1, g.2, g.3, g.4, g.5, .inr ⟨rfl, ?_, hp⟩, g.7⟩
      · exact (fromRecords_plain _ _).trans hr
      · exact congrArg (· ++ _) (g.next.resolve_right nofun).2
    · cases ho.symm.trans hf
  | awaiting hs hr ht live =>
    have g := live hd
    obtain rfl := plain (by rw [g.state]; nofun)
    rcases g.decode hS hM hT hh with ⟨hp, ho⟩ | ho
    · cases ho.symm.trans hf
      refine .awaiting hs ?_ ht fun _ => ⟨g.1, g.2, g.3, g.4, g.5, g.6, g.7, g.8, g.9, g.10, .inr ⟨rfl, ?_, hp⟩, g.12⟩
      · exact (fromRecords_plain _ _).trans hr
      · exact congrArg (· ++ _) (g.next.resolve_right nofun).2
    · cases ho.symm.trans hf
  | talking fs gs rest later hfs hs hr hTg ht hp live =>
    have g := live hd
    obtain rfl : src = .plainBuf := by
      rw [sealedMode_iff.mpr ⟨g.secure, g.state⟩] at hm
      simpa using hm.symm
    rcases g.decode hS hM with ⟨x, rest', rfl, ho⟩ | ho
    · cases ho.symm.trans hf
      refine .talking fs gs rest' later hfs hs ?_ hTg ht hp fun _ => ⟨g.1, g.2, g.3, g.4, ?_, .inr ⟨f, ?_, rfl, ?_⟩⟩
      · rw [← hr]
        exact (congrArg (· ++ rest') (fromRecords_record _ f)).trans (List.append_assoc _ _ _)
      · exact fun x hx => g.clear x (List.mem_cons_of_mem f hx)
      · exact g.clear f List.mem_cons_self
      · exact (g.next.resolve_right nofun).2
    · cases ho.symm.trans hf

omit hS hM hT hh in
lemma Stage.eat {src : Source} {f : Frame S} {n : ℕ} (h : Stage X T (some (src, f, n)) c told)
    (hd : c.dead = false) (hf : Passive c f) : Stage X T none (consume src n c) told := by
  cases h with
  | greeting hs hr ht live =>
    have g := live hd
    obtain ⟨-, rfl, -⟩ := g.due_eq rfl
    exact absurd g.state hf
  | awaiting hs hr ht live =>
    obtain ⟨-, rfl, -⟩ := (live hd).due_eq rfl
    exact hf.elim
  | talking fs gs rest later hfs hs hr hTg ht hp live =>
    have g := live hd
    obtain ⟨rfl, hx, rfl, hbuf⟩ := g.due_eq rfl
    refine .talking fs gs rest later hfs hs hr hTg ht hp fun _ => ⟨g.1, g.2, g.3, g.4, g.5, .inl ⟨rfl, ?_⟩⟩
    change c.plainBuf.drop _ = _
    rw [hbuf, List.drop_left]

omit hS hM hT hh in
lemma Stage.accept {src : Source} {ack : Bool} {p : Hello S} {n : ℕ} {r : HandshakeResult S}
    (h : Stage X T (some (src, .hello ack p, n)) c told) (hd : c.dead = false) (hst : c.state = .handshaking)
    (hr : doHandshake c.ephKeys p.ephPubKey O.env.self.groupKey O.env.self.groupName = some r) :
    Stage X T none ((consume src n (c.agreed O.env.self p r)).say (.authConfirm r.myConfirmTag
      (if O.env.self.hasIdentity && p.hasIdentity then some (S.sign
        (idTranscript c.ephKeys.pk p.ephPubKey O.env.self.nodeName) O.env.self.idKeys.sk) else none))) told := by
  cases h with
  | greeting hs hrec ht live =>
    have g := live hd
    obtain ⟨rfl, hp, rfl, hdis, hpre⟩ := g.due_eq rfl
    cases hp
    rw [g.keys, X.agreed] at hr
    cases hr
    rw [g.keys, ← X.mine_confirm]
    refine .awaiting ?_ hrec ht fun _ =>
      ⟨rfl, g.keys, rfl, rfl, rfl, rfl, rfl, g.plain, ?_, ?_, .inl ⟨rfl, hdis⟩, g.secure⟩
    · exact congrArg (· ++ _) hs
    · change c.plainRead + _ = _
      rw [g.read, Nat.zero_add]
    · change c.heard = _ ++ c.inBuf.drop _
      obtain ⟨t, ht⟩ := hpre
      rw [g.heard, ← ht, List.drop_left]
  | awaiting hs hrec ht live =>
    rw [(live hd).state] at hst
    cases hst
  | talking fs gs rest later hfs hs hrec hTg ht hp live =>
    rw [(live hd).state] at hst
    cases hst

omit hS hM in
lemma Stage.confirm {src : Source} {tag : S.Block 32} {sig : Option (S.Block 64)} {n : ℕ}
    (h : Stage X T (some (src, .authConfirm tag sig, n)) c told) (hd : c.dead = false)
    (hst : c.state = .awaitingConfirm) :
    Stage X T none { consume src n c with state := .established } (told ++ [c.peerHello]) := by
  cases h with
  | greeting hs hrec ht live =>
    rw [(live hd).state] at hst
    cases hst
  | awaiting hs hrec ht live =>
    have g := live hd
    obtain ⟨rfl, hp, rfl, hdis, hpre⟩ := g.due_eq rfl
    obtain ⟨later, hTg⟩ := g.items hT hh hpre
    refine .talking [] [] [] later nofun (fun _ => hs) ?_ hTg ?_ ?_ fun _ =>
      ⟨rfl, g.secure, ⟨X.result.session, g.sess, ?_⟩, ?_, nofun, .inl ⟨rfl, g.plain⟩⟩
    · exact (List.append_nil _).trans hrec
    · rw [ht, g.peerHello]
      rfl
    · change c.plainRead + _ = _
      rw [g.read]
    · rw [X.session]
      exact ⟨rfl, rfl, rfl, fun _ => rfl⟩
    · change c.heard = _ ++ c.inBuf.drop _
      obtain ⟨t, ht⟩ := hpre
      rw [g.heard, ← ht, List.drop_left]
      simp [Script.items, recordsFrom, Sent.wire]
  | talking fs gs rest later hfs hs hrec hTg ht hp live =>
    rw [(live hd).state] at hst
    cases hst

end Reading

end Stages

end Multimaster
