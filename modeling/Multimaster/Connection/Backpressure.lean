import Multimaster.Connection.Framing

/-! The records of a secured connection stay in step with the counter of the reader, unless one is dropped. -/

namespace Multimaster

variable {S : Suite}

section Sealed

variable {O : Owner S} {A : ConnState → Frame S → Prop} {c d : PeerConnection S}

structure Numbered (c : PeerConnection S) (s : SecureSession S) (ps fs : List (Frame S)) : Prop where
  sess : c.sess = some s
  sent : c.sent = ps.map .plain ++ recordsFrom s.txKey 0 fs
  next : s.txCtr = UInt64.ofNat fs.length

structure InStep (c : PeerConnection S) : Prop where
  records : c.state = .established → ∃ s ps fs, Numbered c s ps fs
  clear : c.state ≠ .established → InClear c
  fresh : c.state = .awaitingConfirm → ∃ s, c.sess = some s ∧ s.txCtr = 0

lemma InStep.same (h : InStep c) (hst : d.state = c.state) (hs : d.sent = c.sent) (hse : d.sess = c.sess) :
    InStep d where
  records hd := by
    obtain ⟨s, ps, fs, hn⟩ := h.records (hst.symm.trans hd)
    exact ⟨s, ps, fs, hse.trans hn.1, hs.trans hn.2, hn.3⟩
  clear hd := by
    obtain ⟨fs, hf⟩ := h.clear (hst ▸ hd)
    exact ⟨fs, hs.trans hf⟩
  fresh hd := hse ▸ h.fresh (hst.symm.trans hd)

lemma InStep.congr (hd : d.ledger = c.ledger) (h : InStep c) : InStep d :=
  h.same (ledger_field hd PeerConnection.state fun _ => rfl) (ledger_field hd PeerConnection.sent fun _ => rfl)
    (ledger_field hd PeerConnection.sess fun _ => rfl)

lemma InStep.put (h : InStep c) (hsec : c.secure = true) (f : Frame S) : InStep (c.put f) := by
  have hopen (hst : c.state ≠ .established) : (sealFrame c f).2 = (.plain f, c.sess) :=
    sealFrame_open (Bool.eq_false_of_not_eq_true fun h => hst (sealedMode_iff.mp h).2) f
  refine ⟨fun hst => ?_, fun hst => ?_, fun hst => ?_⟩
  · have hst : c.state = .established := hst
    obtain ⟨s, ps, fs, hn⟩ := h.records hst
    have hseal : (sealFrame c f).2 = (.record s.txKey s.txCtr f, some { s with txCtr := s.txCtr + 1 }) := by
      simp [sealFrame, hn.sess, hsec, hst, SecureSession.seal]
    refine ⟨{ s with txCtr := s.txCtr + 1 }, ps, fs ++ [f], congrArg Prod.snd hseal, ?_, ?_⟩
    · rw [recordsFrom_append, ← List.append_assoc, ← hn.sent, Nat.zero_add, recordsFrom, ← hn.next]
      exact congrArg (fun x => c.sent ++ [x]) (congrArg Prod.fst hseal)
    · change s.txCtr + 1 = _
      rw [hn.next, List.length_append, List.length_singleton, UInt64.ofNat_add]
      rfl
  · exact (h.clear hst).append (congrArg (fun x => c.sent ++ [x]) (congrArg Prod.fst (hopen hst)))
  · obtain ⟨s, hs, hz⟩ := h.fresh hst
    have hst : c.state = .awaitingConfirm := hst
    have hne : c.state ≠ .established := by simp [hst]
    exact ⟨s, (congrArg Prod.snd (hopen hne)).trans hs, hz⟩

def Lockstep (O : Owner S) (c : PeerConnection S) : Prop :=
  (O.env.cfg.overflowPolicy = .disconnect → c.overflowed = true → c.dead = true) ∧
    (c.dead = false → c.overflowed = false → InStep c)

lemma Lockstep.congr (hd : d.ledger = c.ledger) (h : Lockstep O c) : Lockstep O d := by
  have ho : d.overflowed = c.overflowed := ledger_field hd PeerConnection.overflowed fun _ => rfl
  have ha : d.dead = c.dead := ledger_field hd PeerConnection.dead fun _ => rfl
  exact ⟨fun hp hv => ha.trans (h.1 hp (ho.symm.trans hv)),
    fun hv hw => (h.2 (ha.symm.trans hv) (ho.symm.trans hw)).congr hd⟩

lemma Lockstep.same (h : Lockstep O c) (ho : d.overflowed = c.overflowed) (ha : d.dead = c.dead)
    (hst : d.state = c.state) (hs : d.sent = c.sent) (hse : d.sess = c.sess) : Lockstep O d :=
  ⟨fun hp hv => ha.trans (h.1 hp (ho.symm.trans hv)),
    fun hv hw => (h.2 (ha.symm.trans hv) (ho.symm.trans hw)).same hst hs hse⟩

lemma Lockstep.dead (hd : d.dead = true) : Lockstep O d :=
  ⟨fun _ _ => hd, fun hv => nomatch hv.symm.trans hd⟩

lemma Tick.lockstep {x y : Moment S} (h : Tick O A x y) (hsec : x.2.conn.secure = true)
    (hx : Lockstep O x.2.conn) : Lockstep O y.2.conn := by
  cases h with
  | lapse => exact hx
  | put f hf hd hc => exact .congr hc ⟨hx.1, fun hv hw => (hx.2 hv hw).put hsec f⟩
  | spill f hf hd hp hc => exact .congr hc ⟨fun hq => (nomatch hp.symm.trans hq), fun _ => nofun⟩
  | evict f hf hd hp hc => exact .congr hc ⟨fun hq => (nomatch hp.symm.trans hq), fun _ => nofun⟩
  | choke _ _ _ _ _ hc | die _ hc | fault _ _ _ hc | blamed _ _ _ _ _ _ _ hc => exact .congr hc (.dead rfl)
  | idle hc | flush _ _ _ hc | receive _ _ hc | stamp _ _ _ _ _ _ hc =>
    exact .congr hc (hx.same rfl rfl rfl rfl rfl)
  | absorb pt n hd hm hr hc =>
    refine .congr hc ⟨hx.1, fun hv hw => ?_⟩
    have hst := (sealedMode_iff.mp hm).2
    obtain ⟨s, ps, fs, hn⟩ := (hx.2 hv hw).records hst
    refine ⟨fun _ => ⟨{ s with rxCtr := s.rxCtr + 1 }, ps, fs, ?_, hn.sent, hn.next⟩, fun hne => absurd hst hne,
      fun ha => nomatch hst.symm.trans ha⟩
    exact congrArg (Option.map _) hn.sess
  | eat src f n hd hf hc => cases src <;> exact .congr hc (hx.same rfl rfl rfl rfl rfl)
  | welcome src n ack h hd hst hs => exact nomatch hs.symm.trans hsec
  | accept src n ack h r hd hst hid hr hc =>
    refine .congr hc ⟨?_, fun hv hw => ⟨?_, fun _ => ?_, fun _ => ⟨r.session, ?_, ?_⟩⟩⟩
    · cases src <;> exact hx.1
    · cases src <;> nofun
    · have hw : InStep _ := hx.2 hd (by cases src <;> exact hw)
      exact (hw.clear (by rw [hst]; nofun)).append (by cases src <;> rfl)
    · cases src <;> rfl
    · exact doHandshake_txCtr hr
  | confirm src n tag sig hd hst htag hv hc =>
    refine .congr hc ⟨?_, fun hv hw => ⟨fun _ => ?_, nofun, nofun⟩⟩
    · cases src <;> exact hx.1
    · have hw : InStep _ := hx.2 hd (by cases src <;> exact hw)
      obtain ⟨fs, hs⟩ := hw.clear (by rw [hst]; nofun)
      obtain ⟨s, hsess, hz⟩ := hw.fresh hst
      refine ⟨s, fs, [], ?_, ?_, hz⟩
      · cases src <;> exact hsess
      · rw [recordsFrom, List.append_nil]
        cases src <;> exact hs

lemma Ticks.lockstep {x y : Moment S} (h : Ticks O A x y) (hsec : x.2.conn.secure = true)
    (hx : Lockstep O x.2.conn) : Lockstep O y.2.conn := by
  induction h with
  | refl => exact hx
  | tail hy h ih => exact h.lockstep ((Ticks.secure hy).trans hsec) ih

def Sent.ciphertext : Sent S → Bytes
  | .plain _ => []
  | .record key ctr f => S.encrypt key (nonceFromCounter ctr) (encode f)

def SecureSession.unsealAll (s : SecureSession S) : List Bytes → Option (List Bytes)
  | [] => some []
  | ct :: cts => (s.unseal ct).bind fun r => (r.2.unsealAll cts).map (r.1 :: ·)

lemma unsealAll_records (hS : S.Lawful) {q : SecureSession S} {key : S.Block 32} {k : ℕ} (fs : List (Frame S))
    (hkey : q.rxKey = key) (hctr : q.rxCtr = UInt64.ofNat k) :
    q.unsealAll ((recordsFrom key k fs).map Sent.ciphertext) = some (fs.map encode) := by
  induction fs generalizing q k with
  | nil => rfl
  | cons f fs ih =>
    have hlen : ¬(S.encrypt key (nonceFromCounter (UInt64.ofNat k)) (encode f)).length < 16 := by
      rw [hS.encrypt_length]
      omega
    have hopen : q.unseal (S.encrypt key (nonceFromCounter (UInt64.ofNat k)) (encode f)) =
        some (encode f, { q with rxCtr := q.rxCtr + 1 }) := by
      rw [SecureSession.unseal, if_neg hlen, hkey, hctr, hS.decrypt_encrypt]
      rfl
    have hrest : ({ q with rxCtr := q.rxCtr + 1 } : SecureSession S).unsealAll
        ((recordsFrom key (k + 1) fs).map Sent.ciphertext) = some (fs.map encode) := by
      refine ih hkey ?_
      rw [hctr, UInt64.ofNat_add]
      rfl
    rw [recordsFrom, List.map_cons, SecureSession.unsealAll, Sent.ciphertext, hopen, Option.bind_some, hrest]
    rfl

/-- The records on the wire are whole and numbered without a gap, and whoever holds the key and
starts from zero opens them all. -/
def Gapless (c : PeerConnection S) : Prop :=
  ∃ (s : SecureSession S) (ps fs : List (Frame S)), c.sess = some s ∧
    c.sent = ps.map .plain ++ recordsFrom s.txKey 0 fs ∧
    c.written <+: c.sent.flatMap Sent.wire ∧
    ∀ q : SecureSession S, q.rxKey = s.txKey → q.rxCtr = 0 →
      q.unsealAll ((c.sent.filter Sent.isRecord).map Sent.ciphertext) = some (fs.map encode)

lemma filter_isRecord (key : S.Block 32) (ps fs : List (Frame S)) :
    (ps.map Sent.plain ++ recordsFrom key 0 fs).filter Sent.isRecord = recordsFrom key 0 fs := by
  have hall : (recordsFrom key 0 fs).filter Sent.isRecord = recordsFrom key 0 fs :=
    List.filter_eq_self.mpr fun _ => recordsFrom_isRecord
  have hnone : (ps.map Sent.plain).filter Sent.isRecord = ([] : List (Sent S)) := by
    rw [List.filter_eq_nil_iff]
    intro x hx
    obtain ⟨f, -, rfl⟩ := List.mem_map.mp hx
    nofun
  rw [List.filter_append, hnone, hall, List.nil_append]

theorem record_lockstep (hS : S.Lawful) (O : Owner S) (hsec : O.env.self.secure = true) (inbound : Bool)
    (es : List (Stimulus S)) (h : O.env.cfg.overflowPolicy = .disconnect ∨
      (Endpoint.run O inbound es).conn.overflowed = false)
    (hd : (Endpoint.run O inbound es).conn.dead = false)
    (hst : (Endpoint.run O inbound es).conn.state = .established) :
    Gapless (Endpoint.run O inbound es).conn := by
  have hl : Lockstep O (Endpoint.run O inbound es).conn := by
    obtain ⟨v, hv, ht⟩ := run_ticks (O := O) inbound es
    rcases hv with hv | hv
    · refine ht.lockstep (hv.secure.trans hsec) ?_
      obtain ⟨keys, x, hc, -⟩ := hv.conn
      exact .congr hc ⟨fun _ => nofun, fun _ _ => ⟨nofun, fun _ => ⟨[_], rfl⟩, nofun⟩⟩
    · obtain ⟨err, what, hc⟩ := hv.conn
      exact ht.lockstep ((ledger_field hc PeerConnection.secure fun _ => rfl).trans hsec) (.congr hc (.dead rfl))
  have ho : (Endpoint.run O inbound es).conn.overflowed = false := by
    rcases h with hp | ho
    · exact Bool.eq_false_of_not_eq_true fun ho => nomatch hd.symm.trans (hl.1 hp ho)
    · exact ho
  obtain ⟨s, ps, fs, hn⟩ := (hl.2 hd ho).records hst
  refine ⟨s, ps, fs, hn.sess, hn.sent, ⟨_, run_queued O inbound es (.inr ho)⟩, fun q hkey hctr => ?_⟩
  rw [hn.sent, filter_isRecord]
  exact unsealAll_records hS fs hkey hctr

def Owner.squeezed (overflowPolicy : Overflow) : Owner Suite.counted where
  env :=
    { cfg := { maxOutboundQueueBytes := 30, overflowPolicy }
      self :=
        { nodeId := Octets.fill [1], groupName := [], protocolVersion := 1, listenPort := 0, secure := true
          groupKey := Octets.zero 32, hasIdentity := false, idKeys := ⟨Octets.zero 32, Octets.zero 64⟩
          nodeName := [], trustedKeys := [] }
      oracle :=
        { Oracle.calm Suite.counted with
          send := fun n => if n = 12 then [] else [.wrote 4096]
          recv := fun _ => [.data (encode (S := Suite.counted) (.hello false
            { Hello.blank _ with
              nodeId := Octets.fill [2], protocolVersion := 1, secure := true, ephPubKey := Octets.fill [7] }) ++
            encode (S := Suite.counted) (.authConfirm
              (((doHandshake (S := Suite.counted) (genEphemeral (Octets.zero 32)) (Octets.fill [7])
                (Octets.zero 32) []).map (·.expectedPeerTag)).getD (Octets.zero 32)) none))] } }
  acts _ := []

def squeezedRun : List (Stimulus Suite.counted) :=
  [.io false false true, .act (.send .heartbeat), .act (.send .heartbeat), .io false true false,
    .act (.send .heartbeat)]

theorem record_lockstep_squeezed :
    Gapless (Endpoint.run (.squeezed .disconnect) true (squeezedRun.take 2)).conn :=
  record_lockstep Suite.counted_lawful (.squeezed .disconnect) rfl true (squeezedRun.take 2) (.inl rfl)
    (by decide +kernel) (by decide +kernel)

theorem dropped_record_desyncs :
    (Endpoint.run (.squeezed .dropNewest) true squeezedRun).conn.dead = false ∧
      (Endpoint.run (.squeezed .dropNewest) true squeezedRun).conn.state = .established ∧
      ¬Gapless (Endpoint.run (.squeezed .dropNewest) true squeezedRun).conn := by
  refine ⟨by decide +kernel, by decide +kernel, ?_⟩
  rintro ⟨s, ps, fs, hsess, -, -, hopen⟩
  let key : Suite.counted.Block 32 :=
    ((Endpoint.run (.squeezed .dropNewest) true squeezedRun).conn.sess.map (·.txKey)).getD (Octets.zero 32)
  have hkey : key = s.txKey := by
    simp only [key, hsess]
    rfl
  have hfails : (SecureSession.mk key key 0 0).unsealAll
      (((Endpoint.run (.squeezed .dropNewest) true squeezedRun).conn.sent.filter Sent.isRecord).map
        Sent.ciphertext) = none := by decide +kernel
  clear_value key
  have h := hopen (.mk key key 0 0) hkey rfl
  rw [hfails] at h
  cases h

end Sealed

end Multimaster
