import Multimaster.Connection.Cutting

/-! What a connection has received when the stream is any stream of bytes. -/

namespace Multimaster

variable {S : Suite}

section Reading

lemma none_due {p : Source → Frame S → ℕ → Prop} (src : Source) (f : Frame S) (n : ℕ)
    (h : (none : Due S) = some (src, f, n)) : p src f n := by
  cases h

structure BeforeRecords (due : Due S) (c : PeerConnection S) : Prop where
  state : c.state ≠ .established
  empty : c.plainBuf = []
  rest : c.heard.drop c.plainRead = c.inBuf
  read : c.plainRead ≤ c.heard.length
  due : ∀ src f n, due = some (src, f, n) → src = .inBuf ∧ n ≤ c.inBuf.length
  fresh : c.state = .awaitingConfirm → ∃ key, c.intake.rx = some (key, 0)

structure AtRecords (cts : List Bytes) (rest left : Bytes) (ctr : UInt64) (due : Due S) (c : PeerConnection S) :
    Prop where
  state : c.state = .established
  rest : rest = c.inBuf
  count : ctr = UInt64.ofNat cts.length
  due : due = none ∧ left = c.plainBuf ∨ ∃ f n, due = some (.plainBuf, f, n) ∧ left = c.plainBuf.drop n

lemma AtRecords.left_eq {cts : List Bytes} {rest left : Bytes} {ctr : UInt64} {c : PeerConnection S}
    (g : AtRecords cts rest left ctr none c) : left = c.plainBuf := by
  rcases g.due with ⟨-, h⟩ | ⟨_, _, h, -⟩
  · exact h
  · cases h

structure Drawn (M : ℕ) (key : S.Block 32) (cts : List Bytes) (rest left : Bytes) (c : PeerConnection S) : Prop where
  cut : Cuts (c.heard.drop c.plainRead) cts rest
  read : c.plainRead ≤ c.heard.length
  opened : Unseals key cts c.opened
  decodes : Decodes M c.opened.flatten (fromRecords c.dispatched) left

inductive Received (M : ℕ) (due : Due S) (c : PeerConnection S) : Prop where
  | clear (ho : c.opened = []) (hr : fromRecords c.dispatched = []) (live : c.dead = false → BeforeRecords due c)
  | records (key : S.Block 32) (ctr : UInt64) (cts : List Bytes) (rest left : Bytes)
      (hk : c.intake.rx = some (key, ctr)) (drawn : Drawn M key cts rest left c)
      (live : c.dead = false → AtRecords cts rest left ctr due c)

variable {O : Owner S} {A : ConnState → Frame S → Prop} {M : ℕ} {due : Due S} {c d : PeerConnection S}

lemma Drawn.same {key : S.Block 32} {cts : List Bytes} {rest left : Bytes} (h : Drawn M key cts rest left c)
    (ho : d.opened = c.opened) (hr : d.dispatched = c.dispatched) (hp : d.plainRead = c.plainRead)
    (hh : d.heard = c.heard) : Drawn M key cts rest left d := by
  refine ⟨?_, ?_, ?_, ?_⟩
  · rw [hh, hp]
    exact h.cut
  · rw [hh, hp]
    exact h.read
  · rw [ho]
    exact h.opened
  · rw [ho, hr]
    exact h.decodes

lemma dead_absurd {p : Prop} (hd : c.dead = true) (ha : c.dead = false) : p := by
  rw [hd] at ha
  cases ha

lemma Received.same (h : Received M due c) (ho : d.opened = c.opened) (hr : d.dispatched = c.dispatched)
    (hp : d.plainRead = c.plainRead) (hh : d.heard = c.heard) (hi : d.intake = c.intake) (hs : d.state = c.state)
    (hd : d.dead = c.dead) : Received M due d := by
  have hin : d.inBuf = c.inBuf := congrArg Intake.inBuf hi
  have hplain : d.plainBuf = c.plainBuf := congrArg Intake.plainBuf hi
  cases h with
  | clear h₁ h₂ live =>
    refine .clear (ho.trans h₁) (by rw [hr, h₂]) fun ha => ?_
    have g := live (hd ▸ ha)
    refine ⟨hs ▸ g.state, hplain.trans g.empty, ?_, ?_, ?_, ?_⟩
    · rw [hh, hp, hin, g.rest]
    · rw [hh, hp]
      exact g.read
    · rw [hin]
      exact g.due
    · rw [hs, hi]
      exact g.fresh
  | records key ctr cts rest left hk drawn live =>
    refine .records key ctr cts rest left (by rw [hi, hk]) (drawn.same ho hr hp hh) fun ha => ?_
    have g := live (hd ▸ ha)
    exact ⟨hs.trans g.state, g.rest.trans hin.symm, g.count, by rw [hplain]; exact g.due⟩

lemma Received.congr (hc : d.ledger = c.ledger) (h : Received M due c) : Received M due d :=
  h.same (ledger_field hc PeerConnection.opened fun _ => rfl) (ledger_field hc PeerConnection.dispatched fun _ => rfl)
    (ledger_field hc PeerConnection.plainRead fun _ => rfl) (ledger_field hc PeerConnection.heard fun _ => rfl)
    (ledger_field hc PeerConnection.intake fun _ => rfl) (ledger_field hc PeerConnection.state fun _ => rfl)
    (ledger_field hc PeerConnection.dead fun _ => rfl)

lemma Received.dead {due' : Due S} (h : Received M due c) (hd : d.dead = true) (ho : d.opened = c.opened)
    (hr : d.dispatched = c.dispatched) (hp : d.plainRead = c.plainRead) (hh : d.heard = c.heard)
    (hk : d.intake.rx = c.intake.rx) : Received M due' d := by
  cases h with
  | clear h₁ h₂ => exact .clear (ho.trans h₁) (by rw [hr, h₂]) (dead_absurd hd)
  | records key ctr cts rest left hkey drawn =>
    exact .records key ctr cts rest left (hk.trans hkey) (drawn.same ho hr hp hh) (dead_absurd hd)

lemma sealFrame_rx (c : PeerConnection S) (f : Frame S) :
    ((sealFrame c f).2.2.map fun s => (s.rxKey, s.rxCtr)) = c.intake.rx := by
  change _ = c.sess.map fun s => (s.rxKey, s.rxCtr)
  unfold sealFrame
  split
  · rename_i s hs
    rw [hs]
    split_ifs <;> rfl
  · rename_i hs
    rw [hs]

lemma Received.took (h : Received M none c) (l : Bytes) : Received M none (c.took l) := by
  cases h with
  | clear ho hr live =>
    refine .clear ho hr fun hd => ?_
    have g := live hd
    refine ⟨g.state, g.empty, ?_, ?_, none_due, g.fresh⟩
    · change (c.heard ++ l).drop c.plainRead = c.inBuf ++ l
      rw [List.drop_append_of_le_length g.read, g.rest]
    · change c.plainRead ≤ (c.heard ++ l).length
      exact g.read.trans (by simp)
  | records key ctr cts rest left hk drawn live =>
    refine .records key ctr cts (rest ++ l) left hk ⟨?_, ?_, drawn.opened, drawn.decodes⟩ fun hd => ?_
    · change Cuts ((c.heard ++ l).drop c.plainRead) cts (rest ++ l)
      rw [List.drop_append_of_le_length drawn.read]
      exact drawn.cut.append l
    · change c.plainRead ≤ (c.heard ++ l).length
      exact drawn.read.trans (by simp)
    · have g := live hd
      exact ⟨g.state, congrArg (· ++ l) g.rest, g.count, g.due⟩

lemma Received.absorb (hM : M + 100 ≤ 2 ^ 32) (h : Received M none c) (hd : c.dead = false)
    (hm : sealedMode c = true) {pt : Bytes} {n : ℕ} (hr : readRecord M c.intake.rx c.inBuf = .opened pt n) :
    Received M none (c.absorb pt n) := by
  have hst := (sealedMode_iff.mp hm).2
  cases h with
  | clear ho hr live => exact absurd hst (live hd).state
  | records key ctr cts rest left hk drawn live =>
    have g := live hd
    obtain ⟨hlen, hn, hmin, hmax, hdecrypt⟩ := readRecord_opened hr
    have hn : n = 4 + lengthField c.inBuf := by
      rw [Nat.mod_eq_of_lt (by omega)] at hmax
      rw [hn, Nat.mod_eq_of_lt (by omega)]
    have hpt : S.decrypt key (nonceFromCounter (UInt64.ofNat cts.length)) (frameBody c.inBuf) = some pt := by
      rw [hk, g.count, openRecord, Option.bind_some] at hdecrypt
      split_ifs at hdecrypt
      exact hdecrypt
    obtain rfl := g.rest
    refine .records key (ctr + 1) (cts ++ [frameBody c.inBuf]) (c.inBuf.drop n) (left ++ pt) ?_
      ⟨?_, drawn.read, drawn.opened.snoc hpt, ?_⟩ fun _ => ⟨hst, rfl, ?_, ?_⟩
    · have hrx : c.sess.map (fun s => (s.rxKey, s.rxCtr)) = some (key, ctr) := hk
      change (c.sess.map _).map _ = _
      cases hs : c.sess with
      | none => rw [hs] at hrx; cases hrx
      | some s =>
        rw [hs] at hrx
        cases hrx
        rfl
    · rw [hn]
      exact drawn.cut.snoc hlen
    · change Decodes M (c.opened ++ [pt]).flatten _ _
      rw [List.flatten_append, List.flatten_singleton]
      exact drawn.decodes.append pt
    · rw [g.count, List.length_append, List.length_singleton, UInt64.ofNat_add]
      rfl
    · refine .inl ⟨rfl, ?_⟩
      change left ++ pt = c.plainBuf ++ pt
      rw [g.left_eq]

lemma Received.stamp (h : Received M none c) (hsec : c.secure = true) (hd : c.dead = false) {src : Source}
    {f : Frame S} {n : ℕ} (hm : sealedMode c = decide (src = .plainBuf))
    (hf : tryDecodeFrame (c.buffer src) M = .ok f n) :
    Received M (some (src, f, n)) (c.heardFrame src f) := by
  cases h with
  | clear ho hr live =>
    have g := live hd
    have hopen : sealedMode c = false := Bool.eq_false_of_not_eq_true fun h => g.state (sealedMode_iff.mp h).2
    obtain rfl : src = .inBuf := by
      rw [hopen] at hm
      cases src with
      | inBuf => rfl
      | plainBuf => cases hm
    refine .clear ho ((fromRecords_plain _ _).trans hr) fun _ => ⟨g.state, g.empty, g.rest, g.read, ?_, g.fresh⟩
    rintro src f n hdue
    cases hdue
    exact ⟨rfl, consumed_le hf⟩
  | records key ctr cts rest left hk drawn live =>
    have g := live hd
    obtain rfl : src = .plainBuf := by
      rw [sealedMode_iff.mpr ⟨hsec, g.state⟩] at hm
      simpa using hm.symm
    obtain rfl := g.left_eq
    refine .records key ctr cts rest (c.plainBuf.drop n) hk ⟨drawn.cut, drawn.read, drawn.opened, ?_⟩ fun _ =>
      ⟨g.state, g.rest, g.count, .inr ⟨f, n, rfl, rfl⟩⟩
    exact (fromRecords_record c.dispatched f).symm ▸ drawn.decodes.snoc hf

lemma BeforeRecords.consume {src : Source} {f : Frame S} {n : ℕ} (g : BeforeRecords (some (src, f, n)) c) :
    src = .inBuf ∧ c.heard.drop (c.plainRead + n) = c.inBuf.drop n ∧ c.plainRead + n ≤ c.heard.length := by
  obtain ⟨hsrc, hn⟩ := g.due src f n rfl
  have hlen := congrArg List.length g.rest
  have hread := g.read
  rw [List.length_drop] at hlen
  exact ⟨hsrc, by rw [← List.drop_drop, g.rest], by omega⟩

lemma Received.eat {src : Source} {f : Frame S} {n : ℕ} (h : Received M (some (src, f, n)) c) (hd : c.dead = false) :
    Received M none (consume src n c) := by
  cases h with
  | clear ho hr live =>
    have g := live hd
    obtain ⟨rfl, hrest, hread⟩ := g.consume
    exact .clear ho hr fun _ => ⟨g.state, g.empty, hrest, hread, none_due, g.fresh⟩
  | records key ctr cts rest left hk drawn live =>
    have g := live hd
    rcases g.due with ⟨h, -⟩ | ⟨f', n', h, hleft⟩
    · cases h
    · cases h
      exact .records key ctr cts rest left hk (drawn.same rfl rfl rfl rfl) fun _ =>
        ⟨g.state, g.rest, g.count, .inl ⟨rfl, hleft⟩⟩

lemma doHandshake_rxCtr {mine : EphemeralKeypair S} {peer groupKey : S.Block 32} {groupName : Bytes}
    {r : HandshakeResult S} (h : doHandshake mine peer groupKey groupName = some r) : r.session.rxCtr = 0 := by
  unfold doHandshake at h
  split at h
  · cases h
  · cases h
    rfl

lemma Received.accept {own : LocalIdentity S} {src : Source} {ack : Bool} {p : Hello S} {n : ℕ}
    {r : HandshakeResult S} {f : Frame S} (h : Received M (some (src, .hello ack p, n)) c) (hd : c.dead = false)
    (hst : c.state = .handshaking) (hr : r.session.rxCtr = 0) :
    Received M none ((Multimaster.consume src n (c.agreed own p r)).say f) := by
  cases h with
  | clear ho hf live =>
    have g := live hd
    obtain ⟨rfl, hrest, hread⟩ := g.consume
    refine .clear ho hf fun _ =>
      ⟨ConnState.noConfusion, g.empty, hrest, hread, none_due, fun _ => ⟨r.session.rxKey, ?_⟩⟩
    exact congrArg (fun ctr => some (r.session.rxKey, ctr)) hr
  | records key ctr cts rest left hk drawn live =>
    cases hst.symm.trans (live hd).state

lemma Received.confirm {src : Source} {f : Frame S} {n : ℕ} (h : Received M (some (src, f, n)) c)
    (hd : c.dead = false) (hst : c.state = .awaitingConfirm) :
    Received M none { Multimaster.consume src n c with state := .established } := by
  cases h with
  | clear ho hr live =>
    have g := live hd
    obtain ⟨rfl, hrest, hread⟩ := g.consume
    obtain ⟨key, hk⟩ := g.fresh hst
    refine .records key 0 [] (c.inBuf.drop n) [] hk ⟨?_, hread, ?_, ?_⟩ fun _ =>
      ⟨rfl, rfl, rfl, .inl ⟨rfl, g.empty.symm⟩⟩
    · exact hrest ▸ .nil _
    · exact ho.symm ▸ .nil
    · change Decodes M c.opened.flatten (fromRecords c.dispatched) []
      rw [ho, hr]
      exact .nil _
  | records key ctr cts rest left hk drawn live =>
    cases hst.symm.trans (live hd).state

lemma Received.blamed (h : Received M due c) (hd : c.dead = false) (he : Handling due c d) (cat : ErrorCategory)
    (err : ℤ) (what : String) : Received M due (d.failed cat err what) := by
  rcases he with rfl | ⟨src, f, n, rfl, he⟩
  · exact h.dead rfl rfl rfl rfl rfl rfl
  · cases h with
    | clear ho hr live =>
      have hd : d.opened = c.opened ∧ d.dispatched = c.dispatched := by
        rcases he with rfl | ⟨-, p, rfl⟩ <;> cases src <;> exact ⟨rfl, rfl⟩
      refine .clear (hd.1.trans ho) ?_ (dead_absurd rfl)
      change fromRecords d.dispatched = []
      rw [hd.2, hr]
    | records key ctr cts rest left hk drawn live =>
      have g := live hd
      rcases g.due with ⟨h, -⟩ | ⟨f', n', h, hleft⟩
      · cases h
      · cases h
        rcases he with rfl | ⟨hst, -⟩
        · exact .records key ctr cts rest left hk (drawn.same rfl rfl rfl rfl) (dead_absurd rfl)
        · cases hst.symm.trans g.state

lemma Tick.received {x y : Moment S} (hM : O.env.cfg.maxMessageBytes + 100 ≤ 2 ^ 32) (h : Tick O A x y)
    (hsec : x.2.conn.secure = true) (hx : Received O.env.cfg.maxMessageBytes x.1 x.2.conn) :
    Received O.env.cfg.maxMessageBytes y.1 y.2.conn := by
  cases h with
  | lapse hd => exact hx.dead hd rfl rfl rfl rfl rfl
  | idle hc | flush _ _ _ hc => exact .congr hc (hx.same rfl rfl rfl rfl rfl rfl rfl)
  | put f _ _ hc | spill f _ _ _ hc | evict f _ _ _ hc =>
    exact .congr hc (hx.same rfl rfl rfl rfl (congrArg (Intake.mk _ _) (sealFrame_rx _ f)) rfl rfl)
  | choke f _ _ _ _ hc => exact .congr hc (hx.dead rfl rfl rfl rfl rfl (sealFrame_rx _ f))
  | die _ hc | fault _ _ _ hc => exact .congr hc (hx.dead rfl rfl rfl rfl rfl rfl)
  | blamed d hd he cat err what _ hc => exact .congr hc (hx.blamed hd he cat err what)
  | receive l _ hc => exact .congr hc (hx.took l)
  | absorb pt n hd hm hr hc => exact .congr hc (hx.absorb hM hd hm hr)
  | stamp src f n hd hm hf hc => exact .congr hc (hx.stamp hsec hd hm hf)
  | eat src f n hd _ hc => exact .congr hc (hx.eat hd)
  | welcome _ _ _ _ _ _ hs => cases hs.symm.trans hsec
  | accept src n ack p r hd hst _ hr hc => exact .congr hc (hx.accept hd hst (doHandshake_rxCtr hr))
  | confirm src n tag sig hd hst _ _ hc => exact .congr hc (hx.confirm hd hst)

lemma Ticks.received {x y : Moment S} (hM : O.env.cfg.maxMessageBytes + 100 ≤ 2 ^ 32) (h : Ticks O A x y)
    (hsec : x.2.conn.secure = true) (hx : Received O.env.cfg.maxMessageBytes x.1 x.2.conn) :
    Received O.env.cfg.maxMessageBytes y.1 y.2.conn := by
  induction h with
  | refl => exact hx
  | tail hy h ih => exact h.received hM ((Ticks.secure hy).trans hsec) ih

lemma run_received (hM : O.env.cfg.maxMessageBytes + 100 ≤ 2 ^ 32) (hsec : O.env.self.secure = true) (inbound : Bool)
    (es : List (Stimulus S)) : Received O.env.cfg.maxMessageBytes none (Endpoint.run O inbound es).conn := by
  obtain ⟨v, hv, ht⟩ := run_ticks (O := O) inbound es
  rcases hv with hv | hv
  · refine ht.received hM (hv.secure.trans hsec) ?_
    obtain ⟨keys, x, hc, -⟩ := hv.conn
    refine .congr hc (.clear rfl rfl fun _ => ⟨ConnState.noConfusion, rfl, rfl, le_rfl, none_due, fun h => ?_⟩)
    cases h
  · obtain ⟨err, what, hc⟩ := hv.conn
    refine ht.received hM ((ledger_field hc PeerConnection.secure fun _ => rfl).trans hsec) (.congr hc ?_)
    exact .clear rfl rfl (dead_absurd rfl)

end Reading

end Multimaster
