import Multimaster.Connection.TickFrames

/-! The loops of the parser as sequences of ticks, and what only ever grows. -/

namespace Multimaster

variable {S : Suite}
variable {O : Owner S} {A : ConnState → Frame S → Prop} {due : Due S}

section Loops

lemma Tick.secure {x y : Moment S} (h : Tick O A x y) : y.2.conn.secure = x.2.conn.secure := by
  have eaten (src : Source) (n : ℕ) (c : PeerConnection S) : (consume src n c).secure = c.secure := by
    cases src <;> rfl
  cases h with
  | lapse => rfl
  | idle hc | flush _ _ _ hc | put _ _ _ hc | spill _ _ _ _ hc | evict _ _ _ _ hc | choke _ _ _ _ _ hc | die _ hc
  | fault _ _ _ hc | receive _ _ hc | absorb _ _ _ _ _ hc | stamp _ _ _ _ _ _ hc =>
    exact ledger_field hc PeerConnection.secure fun _ => rfl
  | eat src f n hd hf hc => exact (ledger_field hc PeerConnection.secure fun _ => rfl).trans (eaten ..)
  | accept src n ack h r hd hst hid hr hc =>
    exact (ledger_field hc PeerConnection.secure fun _ => rfl).trans (eaten ..)
  | welcome src n ack h hd hst hs hc =>
    exact (ledger_field hc PeerConnection.secure fun _ => rfl).trans (eaten ..)
  | confirm src n tag sig hd hst htag hv hc =>
    exact (ledger_field hc PeerConnection.secure fun _ => rfl).trans (eaten ..)
  | blamed d hd he cat err what hw hc =>
    refine (ledger_field hc PeerConnection.secure fun _ => rfl).trans ?_
    rcases he with rfl | ⟨src, f, n, -, rfl | ⟨-, h, rfl⟩⟩
    · rfl
    · exact eaten ..
    · exact eaten ..

lemma Ticks.secure {x y : Moment S} (h : Ticks O A x y) : y.2.conn.secure = x.2.conn.secure := by
  induction h with
  | refl => rfl
  | tail _ h ih => exact h.secure.trans ih

variable (hA : Utters O A)

include hA

lemma plaintextTurn_ticks (w : Endpoint S) (hw : w.conn.dead = false ∧ sealedMode w.conn = false) :
    Ticks O A (none, w) (none, (plaintextTurn (ownerListener O) 0 w).world) ∧
      (∀ v, plaintextTurn (ownerListener O) 0 w = .again v → v.conn.dead = false ∧ sealedMode v.conn = false) ∧
      ∀ v, plaintextTurn (ownerListener O) 0 w = .stop true v → v.conn.dead = false := by
  obtain ⟨hd, hm⟩ := hw
  unfold plaintextTurn
  split
  · refine ⟨.refl, by rintro _ ⟨⟩, ?_⟩
    rintro _ ⟨⟩
    exact hd
  · rename_i he
    have hl : Lands O A (none, w) (false, fail (ownerSink O) 0 .protocol 0 "malformed/oversized frame" w) :=
      .blamed .refl (.inl rfl) hd (.frame hm he) _ _ _
    exact ⟨hl.ticks, by rintro _ ⟨⟩, by rintro _ ⟨⟩⟩
  · rename_i f n hf
    extract_lets r
    have hr : Lands O A (none, w) r := dispatch_ticks hA ⟨hd, hm, hf⟩
    have hp (ha : r.1 = true) : r.2.conn.dead = false := by simpa [ha] using hr.alive
    split_ifs with ha hs
    · exact ⟨hr.ticks, by rintro _ ⟨⟩, by rintro _ ⟨⟩⟩
    · refine ⟨hr.ticks, by rintro _ ⟨⟩, ?_⟩
      rintro _ ⟨⟩
      exact hp (by simpa using ha)
    · refine ⟨hr.ticks, ?_, by rintro _ ⟨⟩⟩
      rintro _ ⟨⟩
      exact ⟨hp (by simpa using ha), Bool.eq_false_of_not_eq_true hs⟩

lemma secureTurn_ticks (w : Endpoint S) (hw : w.conn.dead = false ∧ sealedMode w.conn = true) :
    Ticks O A (none, w) (none, (secureTurn (ownerListener O) 0 w).world) ∧
      (∀ v, secureTurn (ownerListener O) 0 w = .again v → v.conn.dead = false ∧ sealedMode v.conn = true) ∧
      ∀ v, secureTurn (ownerListener O) 0 w = .stop true v → v.conn.dead = false ∧ sealedMode v.conn = true := by
  obtain ⟨hd, hm⟩ := hw
  have hst : PastHandshake w := .inl (sealedMode_iff.mp hm).2
  unfold secureTurn
  split
  · refine ⟨.refl, by rintro _ ⟨⟩, ?_⟩
    rintro _ ⟨⟩
    exact ⟨hd, hm⟩
  · rename_i he
    have hl : Lands O A (none, w) (false, fail (ownerSink O) 0 .protocol 0 "malformed decrypted frame" w) :=
      .blamed .refl (.inl rfl) hd (.inner rfl hm he) _ _ _
    exact ⟨hl.ticks, by rintro _ ⟨⟩, by rintro _ ⟨⟩⟩
  · rename_i f n hf
    extract_lets r
    have hr : Lands O A (none, w) r := dispatch_ticks hA ⟨hd, hm, hf⟩
    split_ifs with ha
    · exact ⟨hr.ticks, by rintro _ ⟨⟩, by rintro _ ⟨⟩⟩
    · refine ⟨hr.ticks, ?_, by rintro _ ⟨⟩⟩
      rintro _ ⟨⟩
      have hd' : r.2.conn.dead = false := by
        have := hr.alive
        simp_all
      have hsec' := hr.ticks.secure.trans (sealedMode_iff.mp hm).1
      exact ⟨hd', sealedMode_iff.mpr ⟨hsec', (hr.ticks.settled hst).state hd'⟩⟩

omit hA in
lemma recordTurn_ticks (w : Endpoint S) (hw : w.conn.dead = false ∧ sealedMode w.conn = true) :
    Ticks O A (none, w) (none, (recordTurn (ownerListener O) 0 w).world) ∧
      (∀ v, recordTurn (ownerListener O) 0 w = .again v → v.conn.dead = false ∧ sealedMode v.conn = true) ∧
      ∀ v, recordTurn (ownerListener O) 0 w = .stop true v → v.conn.dead = false ∧ sealedMode v.conn = true := by
  obtain ⟨hd, hm⟩ := hw
  have dies (h : readRecord O.env.cfg.maxMessageBytes w.conn.intake.rx w.conn.inBuf = .malformed ∨
      readRecord O.env.cfg.maxMessageBytes w.conn.intake.rx w.conn.inBuf = .forged) (cat : ErrorCategory)
      (what : String) : Ticks O A (none, w) (none, fail (ownerSink O) 0 cat 0 what w) :=
    (Lands.blamed (O := O) (A := A) .refl (.inl rfl) hd (.record hm h) cat 0 what).ticks
  rw [recordTurn_eq]
  split
  · refine ⟨.refl, by rintro _ ⟨⟩, ?_⟩
    rintro _ ⟨⟩
    exact ⟨hd, hm⟩
  · rename_i h
    exact ⟨dies (.inl h) _ _, by rintro _ ⟨⟩, by rintro _ ⟨⟩⟩
  · rename_i h
    exact ⟨dies (.inr h) _ _, by rintro _ ⟨⟩, by rintro _ ⟨⟩⟩
  · rename_i pt n h
    refine ⟨.single (.absorb pt n hd hm h rfl rfl), ?_, by rintro _ ⟨⟩⟩
    rintro _ ⟨⟩
    exact ⟨hd, hm⟩

lemma parseInbound_ticks {w : Endpoint S} (hw : w.conn.dead = false) :
    Ticks O A (none, w) (none, parseInbound (ownerListener O) 0 w) := by
  let R (w v : Endpoint S) : Prop := Ticks O A (none, w) (none, v)
  have refl (w : Endpoint S) : R w w := .refl
  have trans {a b c : Endpoint S} (h : R a b) (k : R b c) : R a c := h.trans k
  unfold parseInbound
  extract_lets r q
  have hr : R w r.2 ∧ (r.1 = true → r.2.conn.dead = false) := by
    unfold r
    split
    · rename_i hm
      have hm : (!sealedMode w.conn) = true := hm
      exact turns_ends refl trans (fun _ h => h.1) (plaintextTurn_ticks hA) _ ⟨hw, by simpa using hm⟩
    · exact ⟨.refl, fun _ => hw⟩
  have hq (ha : r.1 = true) (hm : sealedMode r.2.conn = true) :
      R r.2 q.2 ∧ (q.1 = true → q.2.conn.dead = false ∧ sealedMode q.2.conn = true) :=
    turns_spec refl trans recordTurn_ticks _ ⟨hr.2 ha, hm⟩
  split_ifs with ha hs hb
  · exact hr.1
  · exact trans hr.1 (hq (by simpa using ha) hs).1
  · have hq := hq (by simpa using ha) hs
    have ht := turns_spec refl trans (secureTurn_ticks hA) (q.2.conn.plainBuf.length + 1)
      (hq.2 (by simpa using hb))
    exact trans (trans hr.1 hq.1) ht.1
  · exact hr.1

lemma doRead_ticks {w : Endpoint S} (hw : w.conn.dead = false) :
    Ticks O A (none, w) (none, doRead (ownerListener O) 0 w) := by
  unfold doRead
  extract_lets r w₁
  have h₁ : Ticks O A (none, w) (none, w₁) := .single (.receive r.1 hw rfl rfl)
  split
  · exact h₁.trans (fail_ticks _ _ _)
  · exact h₁.trans (parseInbound_ticks hA hw)

lemma react_ticks {w : Endpoint S} (hc : w.conn.state ≠ .connectingOut)
    {e : Stimulus S} (he : ∀ a, e = .act a → w.conn.dead = false →
      (a = .close → A w.conn.state .goodbye) ∧ ∀ f, a = .send f → A w.conn.state f) :
    Ticks O A (none, w) (none, react O w e) := by
  cases e with
  | act a =>
    cases a with
    | send f => exact enqueue_ticks fun hd => (he _ rfl hd).2 f rfl
    | close =>
      unfold react act closeGracefully
      split_ifs with hd
      · exact .refl
      · exact (enqueue_ticks fun hd => (he _ rfl hd).1 rfl).trans (markDead_ticks _)
  | io hup out inn =>
    change Ticks O A (none, w) (none, onIoEvents (ownerListener O) 0 hup out inn w)
    unfold onIoEvents
    extract_lets w₁ w₂
    have hw₁ : w₁ = w := by
      apply if_neg
      have : (w.conn.state == .connectingOut) = false := by simpa using hc
      simp [show (ownerListener O).conn w 0 = w.conn from rfl, this]
    have hw₂ : Ticks O A (none, w) (none, w₂) := by
      unfold w₂
      rw [hw₁]
      split
      · exact flushOutbound_ticks w
      · exact .refl
    split_ifs with hd hh hd₁ hd₂ hin
    · exact .refl
    · exact fail_ticks _ _ _
    · rw [hw₁]
    · exact hw₂
    · exact hw₂.trans (doRead_ticks hA (Bool.eq_false_of_not_eq_true hd₂))
    · exact hw₂

end Loops

section Growth

structure Grows (c d : PeerConnection S) : Prop where
  sent : c.sent <+: d.sent
  heard : c.heard <+: d.heard
  keys : d.ephKeys = c.ephKeys
  overflowed : c.overflowed = true → d.overflowed = true

namespace Grows

variable {c d e : PeerConnection S}

lemma refl (c : PeerConnection S) : Grows c c := ⟨List.prefix_rfl, List.prefix_rfl, rfl, id⟩

lemma trans (h : Grows c d) (k : Grows d e) : Grows c e :=
  ⟨h.sent.trans k.sent, h.heard.trans k.heard, k.keys.trans h.keys, k.overflowed ∘ h.overflowed⟩

lemma congr (he : e.ledger = d.ledger) (h : Grows c d) : Grows c e := by
  have h : Grows c d.ledger := ⟨h.1, h.2, h.3, h.4⟩
  rw [← he] at h
  exact ⟨h.1, h.2, h.3, h.4⟩

lemma consume (h : Grows c d) (src : Source) (n : ℕ) : Grows c (consume src n d) := by
  cases src <;> exact ⟨h.1, h.2, h.3, h.4⟩

lemma say (h : Grows c d) (f : Frame S) : Grows c (d.say f) :=
  ⟨h.sent.trans (List.prefix_append _ _), h.heard, h.keys, h.overflowed⟩

lemma agreed (c : PeerConnection S) (own : LocalIdentity S) (p : Hello S) (r : HandshakeResult S) :
    Grows c (c.agreed own p r) :=
  ⟨List.prefix_rfl, List.prefix_rfl, rfl, id⟩

lemma named (c : PeerConnection S) (p : Hello S) : Grows c (c.named p) :=
  ⟨List.prefix_rfl, List.prefix_rfl, rfl, id⟩

lemma handling (h : Handling due c d) : Grows c d := by
  rcases h with rfl | ⟨src, f, n, -, rfl | ⟨-, p, rfl⟩⟩
  · exact .refl d
  · exact (refl c).consume src n
  · exact (named c p).consume src n

end Grows

lemma Tick.grows {x y : Moment S} (h : Tick O A x y) : Grows x.2.conn y.2.conn := by
  cases h with
  | lapse => exact .refl _
  | idle hc => exact .congr hc (.refl _)
  | flush a b hb hc => exact .congr hc ⟨List.prefix_rfl, List.prefix_rfl, rfl, id⟩
  | put f hf hd hc => exact .congr hc ⟨List.prefix_append _ _, List.prefix_rfl, rfl, id⟩
  | spill f hf hd hp hc => exact .congr hc ⟨List.prefix_rfl, List.prefix_rfl, rfl, fun _ => rfl⟩
  | choke f hf hd hp what hc => exact .congr hc ⟨List.prefix_rfl, List.prefix_rfl, rfl, fun _ => rfl⟩
  | evict f hf hd hp hc => exact .congr hc ⟨List.prefix_append _ _, List.prefix_rfl, rfl, fun _ => rfl⟩
  | die hd hc => exact .congr hc ⟨List.prefix_rfl, List.prefix_rfl, rfl, id⟩
  | fault err what hd hc => exact .congr hc ⟨List.prefix_rfl, List.prefix_rfl, rfl, id⟩
  | receive l hd hc => exact .congr hc ⟨List.prefix_rfl, List.prefix_append _ _, rfl, id⟩
  | absorb pt n hd hm hr hc => exact .congr hc ⟨List.prefix_rfl, List.prefix_rfl, rfl, id⟩
  | stamp src f n hd hm hf hc => exact .congr hc ⟨List.prefix_rfl, List.prefix_rfl, rfl, id⟩
  | eat src f n hd hf hc => exact .congr hc ((Grows.refl _).consume src n)
  | accept src n ack h r hd hst hid hr hc => exact .congr hc (((Grows.agreed _ _ h r).consume src n).say _)
  | welcome src n ack h hd hst hs hc =>
    have hg := fun c : PeerConnection S => (Grows.named c h).consume src n
    exact .congr hc ⟨(hg _).sent, (hg _).heard, (hg _).keys, (hg _).overflowed⟩
  | confirm src n tag sig hd hst htag hv hc =>
    have hg := fun c : PeerConnection S => (Grows.refl c).consume src n
    exact .congr hc ⟨(hg _).sent, (hg _).heard, (hg _).keys, (hg _).overflowed⟩
  | blamed d hd he cat err what hw hc =>
    have hg := Grows.handling he
    exact .congr hc ⟨hg.sent, hg.heard, hg.keys, hg.overflowed⟩

lemma Ticks.grows {x y : Moment S} (h : Ticks O A x y) : Grows x.2.conn y.2.conn := by
  induction h with
  | refl => exact .refl _
  | tail _ h ih => exact ih.trans h.grows

end Growth

end Multimaster
