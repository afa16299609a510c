import Multimaster.Connection.Received

/-! The record layer when someone else holds the wire: what arrives behind the handshake is any stream of bytes. All
that is assumed is that nothing in it opens under the key of the connection but what the other end has sealed. -/

namespace Multimaster

variable {S : Suite}

section Writing

variable {O : Owner S} {A : ConnState → Frame S → Prop} {c d : PeerConnection S}

def Wrote (c : PeerConnection S) : Prop :=
  c.overflowed = false → ∃ (ps : List (Frame S)) (key : S.Block 32) (fs : List (Frame S)),
    c.sent = ps.map .plain ++ recordsFrom key 0 fs

lemma Wrote.same (h : Wrote c) (ho : d.overflowed = c.overflowed) (hs : d.sent = c.sent) : Wrote d := by
  intro hv
  rw [hs]
  exact h (ho.symm.trans hv)

lemma Wrote.congr (hc : d.ledger = c.ledger) (h : Wrote c) : Wrote d :=
  h.same (ledger_field hc PeerConnection.overflowed fun _ => rfl) (ledger_field hc PeerConnection.sent fun _ => rfl)

lemma Lockstep.wrote (h : Lockstep O c) (hd : c.dead = false) : Wrote c := by
  intro ho
  have hs := h.2 hd ho
  by_cases hst : c.state = .established
  · obtain ⟨s, ps, fs, hn⟩ := hs.records hst
    exact ⟨ps, s.txKey, fs, hn.sent⟩
  · obtain ⟨ps, hp⟩ := hs.clear hst
    exact ⟨ps, S.zero 32, [], by rw [recordsFrom, List.append_nil, hp]⟩

lemma Handling.sent {due : Due S} (h : Handling due c d) : d.overflowed = c.overflowed ∧ d.sent = c.sent := by
  rcases h with rfl | ⟨src, f, n, -, rfl | ⟨-, p, rfl⟩⟩
  · exact ⟨rfl, rfl⟩
  · cases src <;> exact ⟨rfl, rfl⟩
  · cases src <;> exact ⟨rfl, rfl⟩

lemma Tick.wrote {x y : Moment S} (h : Tick O A x y) (hsec : x.2.conn.secure = true) (hl : Lockstep O x.2.conn)
    (hx : Wrote x.2.conn) : Wrote y.2.conn := by
  -- a tick to a live connection leaves it in step
  cases hd : y.2.conn.dead with
  | false => exact (h.lockstep hsec hl).wrote hd
  | true =>
    cases h with
    | lapse => exact hx
    | idle hc | flush _ _ _ hc | die _ hc | fault _ _ _ hc => exact .congr hc (hx.same rfl rfl)
    | choke _ _ _ _ _ hc | spill _ _ _ _ hc | evict _ _ _ _ hc =>
      exact .congr hc fun h => absurd h.symm Bool.false_ne_true
    | blamed d _ he _ _ _ _ hc => exact .congr hc (hx.same he.sent.1 he.sent.2)
    | put _ _ ha hc | receive _ ha hc | absorb _ _ ha _ _ hc | stamp _ _ _ ha _ _ hc =>
      cases (ha.symm.trans (ledger_field hc PeerConnection.dead fun _ => rfl).symm).trans hd
    | eat src _ _ ha _ hc | welcome src _ _ _ ha _ _ hc | accept src _ _ _ _ ha _ _ _ hc
    | confirm src _ _ _ ha _ _ _ hc =>
      have hy := ledger_field hc PeerConnection.dead fun _ => rfl
      cases src <;> cases (ha.symm.trans hy.symm).trans hd

lemma Ticks.wrote {x y : Moment S} (h : Ticks O A x y) (hsec : x.2.conn.secure = true) (hl : Lockstep O x.2.conn)
    (hx : Wrote x.2.conn) : Wrote y.2.conn := by
  induction h with
  | refl => exact hx
  | tail hy h ih => exact h.wrote ((Ticks.secure hy).trans hsec) (Ticks.lockstep hy hsec hl) ih

lemma run_wrote (hsec : O.env.self.secure = true) (inbound : Bool) (es : List (Stimulus S)) :
    Wrote (Endpoint.run O inbound es).conn := by
  obtain ⟨v, hv, ht⟩ := run_ticks (O := O) inbound es
  rcases hv with hv | hv
  · obtain ⟨keys, x, hc, -⟩ := hv.conn
    refine ht.wrote (hv.secure.trans hsec) (.congr hc ?_) (.congr hc fun _ => ⟨[_], S.zero 32, [], rfl⟩)
    exact ⟨fun _ => nofun, fun _ _ => ⟨nofun, fun _ => ⟨[_], rfl⟩, nofun⟩⟩
  · obtain ⟨err, what, hc⟩ := hv.conn
    exact ht.wrote ((ledger_field hc PeerConnection.secure fun _ => rfl).trans hsec) (.congr hc (.dead rfl))
      (.congr hc fun _ => ⟨[], S.zero 32, [], rfl⟩)

end Writing

theorem records_intact (hS : S.Lawful) (O P : Owner S) (hO : O.env.self.secure = true) (hP : P.env.self.secure = true)
    (hM : O.env.cfg.maxMessageBytes + 100 ≤ 2 ^ 32) (x y : Bool) (es ds : List (Stimulus S))
    (hroom : (Endpoint.run P y ds).conn.overflowed = false)
    (hfew : (sealedFrames (Endpoint.run P y ds).conn.sent).length < 2 ^ 64)
    (hclear : ∀ f ∈ sealedFrames (Endpoint.run P y ds).conn.sent, f.Clear O.env.cfg.maxMessageBytes)
    (hauth : ∀ s, (Endpoint.run O x es).conn.sess = some s → Unforged s.rxKey
      ((Endpoint.run O x es).conn.heard.drop (Endpoint.run O x es).conn.plainRead) (Endpoint.run P y ds).conn.sent) :
    fromRecords (Endpoint.run O x es).conn.dispatched <+: sealedFrames (Endpoint.run P y ds).conn.sent := by
  obtain ⟨ps, key', fs, hsent⟩ := run_wrote (O := P) hP y ds hroom
  have hsealed : sealedFrames (Endpoint.run P y ds).conn.sent = fs := by
    rw [sealedFrames, hsent, filter_isRecord, recordsFrom_frames]
  rw [hsealed] at hfew hclear ⊢
  cases run_received hM hO x es with
  | clear ho hr =>
    rw [hr]
    exact List.nil_prefix
  | records key ctr cts rest left hk drawn =>
    obtain ⟨s, hs, hkey⟩ : ∃ s, (Endpoint.run O x es).conn.sess = some s ∧ (s.rxKey, s.rxCtr) = (key, ctr) :=
      Option.map_eq_some_iff.mp hk
    cases hkey
    have hun := hauth s hs
    rw [hsent] at hun
    obtain ⟨gs, hgs, -, hopened⟩ := drawn.opened.sealed hfew fun ct hct =>
      hun ct (drawn.cut.mem_bodies hct)
    refine (drawn.decodes.same hS hM hopened fun g hg => hclear g ?_).trans hgs
    exact hgs.subset hg

section Replaying

def guardedData : Frame Suite.counted :=
  .data { src := Octets.fill [2], dst := Octets.zero 16, msgId := Octets.fill [9], ttl := 1, payload := [5] }

def Owner.guarded (b : Bool) (recv : ℕ → List RecvAnswer) : Owner Suite.counted where
  env :=
    { cfg := {}
      self :=
        { nodeId := Octets.fill [if b then 1 else 2], groupName := [], protocolVersion := 1, listenPort := 0
          secure := true, groupKey := Octets.zero 32, hasIdentity := false
          idKeys := ⟨Octets.zero 32, Octets.zero 64⟩, nodeName := [], trustedKeys := [] }
      oracle := { Oracle.calm Suite.counted with secret := fun _ => Octets.fill [if b then 1 else 2], recv } }
  acts _ := if b then [] else [.send guardedData]

def guardedGreeting : Bytes := (Endpoint.start (.guarded false fun _ => []) false).conn.written

def guardedAnswer : Bytes :=
  (Endpoint.run (.guarded true fun _ => [.data guardedGreeting]) true [.io false false true]).conn.written

def guardedWriter : Endpoint Suite.counted :=
  Endpoint.run (.guarded false fun _ => [.data guardedAnswer]) false [.io false false true]

def replayedReader : Owner Suite.counted :=
  .guarded true fun n =>
    [.data (if n < 9 then guardedGreeting
      else if n < 14 then guardedWriter.conn.written.drop guardedGreeting.length
      else (guardedWriter.conn.sent.filter Sent.isRecord).flatMap Sent.wire)]

lemma nonceFromCounter_inj {a b : UInt64} (h : nonceFromCounter a = nonceFromCounter b) : a = b := by
  have hbytes : networkOrder 8 a.toNat = networkOrder 8 b.toNat :=
    List.append_cancel_left (congrArg Subtype.val h)
  have hnum := congrArg hostOrder hbytes
  rw [hostOrder_networkOrder (by have := a.toNat_lt; omega), hostOrder_networkOrder (by have := b.toNat_lt; omega)]
    at hnum
  exact UInt64.toNat.inj hnum

def replayedRun : List (Stimulus Suite.counted) := [.io false false true, .io false false true, .io false false true]

theorem records_intact_replayed :
    (Endpoint.run replayedReader true replayedRun).conn.dead = true ∧
      fromRecords (Endpoint.run replayedReader true replayedRun).conn.dispatched = [guardedData] ∧
      fromRecords (Endpoint.run replayedReader true replayedRun).conn.dispatched <+:
        sealedFrames guardedWriter.conn.sent := by
  have hsent : sealedFrames guardedWriter.conn.sent = [guardedData] := by decide +kernel
  refine ⟨by decide +kernel, by decide +kernel, records_intact Suite.counted_lawful replayedReader
    (.guarded false fun _ => [.data guardedAnswer]) rfl rfl (by decide) true false replayedRun [.io false false true]
    (by decide +kernel) (hsent ▸ by decide) (fun f hf => ?_) fun s hs => ?_⟩
  · obtain rfl := List.mem_singleton.mp (hsent ▸ hf)
    exact ⟨trivial, by decide +kernel, rfl⟩
  · let key : Suite.counted.Block 32 :=
      ((Endpoint.run replayedReader true replayedRun).conn.sess.map (·.rxKey)).getD (Octets.zero 32)
    have hkey : key = s.rxKey := by
      simp only [key, hs]
      rfl
    have hsealed : (key, 0, encode guardedData) ∈ guardedWriter.conn.sent.filterMap Sent.sealing := by decide +kernel
    have hbodies : ∀ ct ∈ bodies ((Endpoint.run replayedReader true replayedRun).conn.heard.drop
        (Endpoint.run replayedReader true replayedRun).conn.plainRead),
        ct.drop (ct.length - 12) = (nonceFromCounter 0).val ∧ ct.take (ct.length - 16) = encode guardedData := by
      decide +kernel
    rw [hkey] at hsealed
    intro ct hct ctr pt ho
    obtain ⟨hnum, hpt⟩ := hbodies ct hct
    change (if ct.drop (ct.length - 12) = (nonceFromCounter ctr).val then some (ct.take (ct.length - 16)) else none) =
      some pt at ho
    split_ifs at ho with hn
    cases ho
    obtain rfl : 0 = ctr := nonceFromCounter_inj (Subtype.ext (hnum.symm.trans hn))
    rw [hpt]
    exact hsealed

end Replaying

end Multimaster
