import Multimaster.Connection.StageReading

/-! One end of an honest conversation: what it reads when the bytes that arrive are those the other
end has put on its queue. -/

namespace Multimaster

variable {S : Suite}

section Stages

variable {O : Owner S} {X : Meeting O} {T : List (Sent S)} {due : Due S} {c d : PeerConnection S}
  {told : List (Hello S)}

def trafficOnly (M : ℕ) (st : ConnState) (f : Frame S) : Prop := st = .established ∧ f.Traffic M

def Unblamed (c : PeerConnection S) : Prop :=
  ∀ cat err what, c.failure = some (cat, err, what) → cat = .socket ∨ cat = .backpressure

lemma Unblamed.congr (hd : d.ledger = c.ledger) (h : Unblamed c) : Unblamed d := by
  have h : Unblamed c.ledger := h
  rw [← hd] at h
  exact h

lemma Stage.spoken (h : Stage X T due c told) (ho : c.overflowed = false) :
    Spoken X.mine (Frame.Traffic O.env.cfg.maxMessageBytes) c.sent := by
  cases h with
  | greeting hs =>
    rw [hs]
    exact .hello
  | awaiting hs =>
    rw [hs]
    exact .items [] nofun
  | talking fs gs rest later hf hs =>
    rw [hs ho]
    exact .items fs hf

lemma Stage.grow (h : Stage X T due c told) {T' : List (Sent S)} (hp : T <+: T')
    (hT' : Spoken X.theirs (Frame.Traffic O.env.cfg.maxMessageBytes) T') : Stage X T' due c told := by
  cases h with
  | greeting hs hr ht live => exact .greeting hs hr ht live
  | awaiting hs hr ht live => exact .awaiting hs hr ht live
  | talking fs gs rest later hf hs hr hT ht hpr live =>
    rw [hT] at hp
    cases hT' with
    | nothing => exact nomatch List.prefix_nil.mp hp
    | hello =>
      have := hp.length_le
      simp [Script.items] at this
    | items ks =>
      obtain ⟨later', rfl⟩ := (List.prefix_append gs later).trans (Script.items_cut hp)
      exact .talking fs gs rest later' hf hs hr rfl ht hpr live

variable (hS : S.Lawful) (hM : O.env.cfg.maxMessageBytes + 100 ≤ 2 ^ 32)
  (hT : Spoken X.theirs (Frame.Traffic O.env.cfg.maxMessageBytes) T)

include hS hM hT

lemma Stage.tick {x y : Moment S} (h : Tick O (trafficOnly O.env.cfg.maxMessageBytes) x y)
    (hx : Stage X T x.1 x.2.conn x.2.told) (hsec : x.2.conn.secure = true)
    (hh : x.2.conn.heard <+: T.flatMap Sent.wire) : Stage X T y.1 y.2.conn y.2.told := by
  cases h with
  | idle hc ht => exact ht ▸ hx.congr hc
  | flush a b hb hc ht => exact ht ▸ (hx.flush a b).congr hc
  | put f hf hd hc ht => exact ht ▸ (hx.put hd hf.1 hf.2).congr hc
  | spill f hf hd hp hc ht => exact ht ▸ (hx.overflow hd hf.1 f _ _).congr hc
  | evict f hf hd hp hc ht => exact ht ▸ (hx.overflow hd hf.1 f _ _).congr hc
  | choke f hf hd hp what hc ht =>
    have hs : Stage X T _ (PeerConnection.spill f _) _ := hx.overflow hd hf.1 f _ _
    exact ht ▸ (hs.killed (d := .failed .backpressure 0 what (.spill f _)) rfl rfl rfl rfl rfl _).congr hc
  | die hd hc ht => exact ht ▸ (hx.killed (d := PeerConnection.killed _) rfl rfl rfl rfl rfl _).congr hc
  | fault err what hd hc ht =>
    exact ht ▸ (hx.killed (d := PeerConnection.failed .socket err what _) rfl rfl rfl rfl rfl _).congr hc
  | blamed d hd he cat err what hw => exact absurd hw (hx.blameless hT hh hS hM hd)
  | lapse hd => exact hx.killed hd rfl rfl rfl rfl _
  | receive l hd hc ht => exact ht ▸ (hx.took l).congr hc
  | absorb pt n hd hm hr hc ht => exact ht ▸ (hx.absorb hS hM hT hh hd hm hr).congr hc
  | stamp src f n hd hm hf hc ht => exact ht ▸ (hx.stamp hS hM hT hh hd hm hf).congr hc
  | eat src f n hd hf hc ht => exact ht ▸ (hx.eat hd hf).congr hc
  | accept src n ack h r hd hst hid hr hc ht => exact ht ▸ (hx.accept hd hst hr).congr hc
  | welcome src n ack h hd hst hs => exact nomatch hs.symm.trans hsec
  | confirm src n tag sig hd hst htag hv hc ht => exact ht ▸ (hx.confirm hT hh hd hst).congr hc

lemma Stage.unblamed {x y : Moment S} (h : Tick O (trafficOnly O.env.cfg.maxMessageBytes) x y)
    (hx : Stage X T x.1 x.2.conn x.2.told) (hsec : x.2.conn.secure = true)
    (hh : x.2.conn.heard <+: T.flatMap Sent.wire) (hu : Unblamed x.2.conn) : Unblamed y.2.conn := by
  cases h with
  | lapse => exact hu
  | idle hc => exact .congr hc hu
  | flush a b hb hc => exact .congr hc hu
  | put f hf hd hc => exact .congr hc hu
  | spill f hf hd hp hc => exact .congr hc hu
  | evict f hf hd hp hc => exact .congr hc hu
  | choke f hf hd hp what hc =>
    refine .congr hc fun _ _ _ hf => ?_
    cases hf
    exact .inr rfl
  | die hd hc => exact .congr hc hu
  | fault err what hd hc =>
    refine .congr hc fun _ _ _ hf => ?_
    cases hf
    exact .inl rfl
  | blamed d hd he cat err what hw => exact absurd hw (hx.blameless hT hh hS hM hd)
  | receive l hd hc => exact .congr hc hu
  | absorb pt n hd hm hr hc => exact .congr hc hu
  | stamp src f n hd hm hf hc => exact .congr hc hu
  | eat src f n hd hf hc => cases src <;> exact .congr hc hu
  | welcome src n ack h hd hst hs => exact nomatch hs.symm.trans hsec
  | accept src n ack h r hd hst hid hr hc => cases src <;> exact .congr hc hu
  | confirm src n tag sig hd hst htag hv hc => cases src <;> exact .congr hc hu

omit hS hM hT in
structure Course (X : Meeting O) (T : List (Sent S)) (w : Endpoint S) : Prop where
  stage : Stage X T none w.conn w.told
  secure : w.conn.secure = true
  connected : w.conn.state ≠ .connectingOut
  unblamed : Unblamed w.conn
  queued : Queued O w.conn

lemma Course.ticks {w v : Endpoint S} (h : Ticks O (trafficOnly O.env.cfg.maxMessageBytes) (none, w) (none, v))
    (hw : Course X T w) (hh : v.conn.heard <+: T.flatMap Sent.wire) : Course X T v := by
  -- what was heard at each moment is the beginning of what has been heard in the end
  have along {y : Moment S} (hy : Ticks O (trafficOnly O.env.cfg.maxMessageBytes) (none, w) y)
      (hhy : y.2.conn.heard <+: T.flatMap Sent.wire) :
      Stage X T y.1 y.2.conn y.2.told ∧ Unblamed y.2.conn ∧ Queued O y.2.conn := by
    induction hy with
    | refl => exact ⟨hw.stage, hw.unblamed, hw.queued⟩
    | @tail y z hy hz ih =>
      have hhy := hz.grows.heard.trans hhy
      obtain ⟨hs, hu, hq⟩ := ih hhy
      have hsec := (Ticks.secure hy).trans hw.secure
      exact ⟨hs.tick hS hM hT hz hsec hhy, hs.unblamed hS hM hT hz hsec hhy hu, hz.queued hq⟩
  obtain ⟨hs, hu, hq⟩ := along h hh
  exact ⟨hs, h.secure.trans hw.secure, h.connected hw.connected, hu, hq⟩

omit hS hM hT in
lemma Course.grow {w : Endpoint S} (h : Course X T w) {T' : List (Sent S)} (hp : T <+: T')
    (hT' : Spoken X.theirs (Frame.Traffic O.env.cfg.maxMessageBytes) T') : Course X T' w :=
  ⟨h.stage.grow hp hT', h.secure, h.connected, h.unblamed, h.queued⟩

end Stages

end Multimaster
