import Multimaster.Connection.TickRuns
import Multimaster.Connection.Transparent

/-! The outbound queue of a connection: what reaches the socket when the queue is capped and the
socket takes any number of bytes at a time. -/

namespace Multimaster

variable {S : Suite}

section Queue

def Sent.wire : Sent S → Bytes
  | .plain f => encode f
  | .record key ctr f =>
    networkOrder 4 ((encode f).length + 16) ++ S.encrypt key (nonceFromCounter ctr) (encode f)

lemma sealFrame_wire (c : PeerConnection S) (f : Frame S) : (sealFrame c f).1 = (sealFrame c f).2.1.wire := by
  unfold sealFrame
  split
  · split_ifs <;> rfl
  · rfl

def Owner.Spares (O : Owner S) (c : PeerConnection S) : Prop :=
  O.env.cfg.overflowPolicy ≠ .dropOldest ∨ c.overflowed = false

def Queued (O : Owner S) (c : PeerConnection S) : Prop :=
  O.Spares c → c.written ++ c.outBuf = c.sent.flatMap Sent.wire

namespace Queued

variable {O : Owner S} {c d : PeerConnection S}

lemma congr (hd : d.ledger = c.ledger) (h : Queued O c) : Queued O d := by
  have h : Queued O c.ledger := h
  rw [← hd] at h
  exact h

lemma append (h : Queued O c) {x : Sent S} {b : Bytes} (hb : b = x.wire) (ho : d.overflowed = c.overflowed)
    (hw : d.written = c.written) (hout : d.outBuf = c.outBuf ++ b) (hs : d.sent = c.sent ++ [x]) :
    Queued O d := by
  intro hd
  rw [hw, hout, hs, ← List.append_assoc, h (hd.imp_right ho.symm.trans), hb, List.flatMap_append,
    List.flatMap_singleton]

lemma consume (h : Queued O c) (src : Source) (n : ℕ) : Queued O (consume src n c) := by
  cases src <;> exact h

end Queued

lemma Tick.queued {O : Owner S} {A : ConnState → Frame S → Prop} {x y : Moment S} (h : Tick O A x y)
    (hx : Queued O x.2.conn) : Queued O y.2.conn := by
  cases h with
  | lapse => exact hx
  | idle hc => exact .congr hc hx
  | flush a b hb hc =>
    refine .congr hc fun ho => ?_
    rw [← hx ho, hb, List.append_assoc]
  | put f hf hd hc => exact .congr hc (hx.append (sealFrame_wire _ f) rfl rfl rfl rfl)
  | spill f hf hd hp hc => exact .congr hc fun _ => hx (.inl (by rw [hp]; nofun))
  | evict f hf hd hp hc => exact .congr hc fun ho => ho.elim (absurd hp) nofun
  | choke f hf hd hp what hc => exact .congr hc fun _ => hx (.inl (by rw [hp]; nofun))
  | die hd hc => exact .congr hc hx
  | fault err what hd hc => exact .congr hc hx
  | receive l hd hc => exact .congr hc hx
  | absorb pt n hd hm hr hc => exact .congr hc hx
  | stamp src f n hd hm hf hc => exact .congr hc hx
  | eat src f n hd hf hc => exact .congr hc (hx.consume src n)
  | confirm src n tag sig hd hst htag hv hc => exact .congr hc (hx.consume src n)
  | welcome src n ack h hd hst hs hc => exact .congr hc (Queued.consume (c := PeerConnection.named h _) hx src n)
  | accept src n ack h r hd hst hid hr hc => cases src <;> exact .congr hc (hx.append rfl rfl rfl rfl rfl)
  | blamed d hd he cat err what hw hc =>
    refine .congr hc ?_
    rcases he with rfl | ⟨src, f, n, -, rfl | ⟨-, h, rfl⟩⟩
    · exact hx
    · exact hx.consume src n
    · exact Queued.consume (c := PeerConnection.named h _) hx src n

lemma Ticks.queued {O : Owner S} {A : ConnState → Frame S → Prop} {x y : Moment S} (h : Ticks O A x y)
    (hx : Queued O x.2.conn) : Queued O y.2.conn := by
  induction h with
  | refl => exact hx
  | tail _ h ih => exact h.queued ih

lemma run_queued (O : Owner S) (inbound : Bool) (es : List (Stimulus S)) :
    Queued O (Endpoint.run O inbound es).conn := by
  obtain ⟨v, hv, ht⟩ := run_ticks (O := O) inbound es
  refine ht.queued ?_
  rcases hv with hv | hv
  · obtain ⟨keys, h, hc, -⟩ := hv.conn
    exact .congr hc fun _ => (List.append_nil _).symm
  · obtain ⟨err, what, hc⟩ := hv.conn
    exact .congr hc fun _ => rfl

end Queue

section Records

def recordsFrom (key : S.Block 32) : ℕ → List (Frame S) → List (Sent S)
  | _, [] => []
  | k, f :: fs => .record key (UInt64.ofNat k) f :: recordsFrom key (k + 1) fs

lemma recordsFrom_append (key : S.Block 32) (k : ℕ) (fs gs : List (Frame S)) :
    recordsFrom key k (fs ++ gs) = recordsFrom key k fs ++ recordsFrom key (k + fs.length) gs := by
  induction fs generalizing k with
  | nil => rfl
  | cons f fs ih =>
    rw [List.cons_append, recordsFrom, ih, recordsFrom, List.cons_append, List.length_cons,
      show k + 1 + fs.length = k + (fs.length + 1) by omega]

lemma recordsFrom_frames (key : S.Block 32) (k : ℕ) (fs : List (Frame S)) :
    (recordsFrom key k fs).map Sent.frame = fs := by
  induction fs generalizing k with
  | nil => rfl
  | cons f fs ih => rw [recordsFrom, List.map_cons, ih]; rfl

def Sent.isRecord : Sent S → Bool
  | .plain _ => false
  | .record _ _ _ => true

def sealedFrames (l : List (Sent S)) : List (Frame S) := (l.filter Sent.isRecord).map Sent.frame

lemma recordsFrom_isRecord {key : S.Block 32} {k : ℕ} {fs : List (Frame S)} {x : Sent S}
    (h : x ∈ recordsFrom key k fs) : x.isRecord = true := by
  induction fs generalizing k with
  | nil => cases h
  | cons f fs ih =>
    cases h with
    | head => rfl
    | tail _ h => exact ih h

end Records

section Plaintext

variable {O : Owner S}

def Framed (c : PeerConnection S) : Prop :=
  ∃ fs : List (Frame S), fs.Sublist (c.sent.map Sent.frame) ∧ c.written <+: fs.flatMap encode

lemma sealFrame_open {c : PeerConnection S} (h : sealedMode c = false) (f : Frame S) :
    (sealFrame c f).2 = (.plain f, c.sess) := by
  have h : (c.secure && c.state == .established) = false := h
  unfold sealFrame
  cases c.sess with
  | none => rfl
  | some s =>
    dsimp only
    rw [h]
    rfl

def InClear (c : PeerConnection S) : Prop := ∃ fs : List (Frame S), c.sent = fs.map .plain

lemma InClear.append {c d : PeerConnection S} (h : InClear c) {f : Frame S}
    (hd : d.sent = c.sent ++ [.plain f]) : InClear d := by
  obtain ⟨fs, hs⟩ := h
  exact ⟨fs ++ [f], by rw [hd, hs, List.map_append]; rfl⟩

lemma InClear.congr {c d : PeerConnection S} (hd : d.ledger = c.ledger) (h : InClear c) : InClear d := by
  have h : InClear c.ledger := h
  rw [← hd] at h
  exact h

lemma Tick.inClear {A : ConnState → Frame S → Prop} {x y : Moment S} (h : Tick O A x y)
    (hs : x.2.conn.secure = false) (hx : InClear x.2.conn) : InClear y.2.conn := by
  have plain {c : PeerConnection S} (hc : c.secure = false) (f : Frame S) : (sealFrame c f).2.1 = .plain f :=
    congrArg Prod.fst (sealFrame_open (by rw [sealedMode, hc]; rfl) f)
  cases h with
  | lapse => exact hx
  | put f hf hd hc => exact .congr hc (hx.append (congrArg (_ ++ [·]) (plain hs f)))
  | evict f hf hd hp hc => exact .congr hc (hx.append (congrArg (_ ++ [·]) (plain hs f)))
  | idle hc | flush _ _ _ hc | spill _ _ _ _ hc | choke _ _ _ _ _ hc | die _ hc | fault _ _ _ hc
  | receive _ _ hc | absorb _ _ _ _ _ hc | stamp _ _ _ _ _ _ hc => exact .congr hc hx
  | eat src f n hd hf hc => cases src <;> exact .congr hc hx
  | welcome src n ack h hd hst hs hc => cases src <;> exact .congr hc hx
  | confirm src n tag sig hd hst htag hv hc => cases src <;> exact .congr hc hx
  | accept src n ack h r hd hst hid hr hc => cases src <;> exact .congr hc (hx.append rfl)
  | blamed d hd he cat err what hw hc =>
    refine .congr hc ?_
    rcases he with rfl | ⟨src, f, n, -, rfl | ⟨-, h, rfl⟩⟩
    · exact hx
    · cases src <;> exact hx
    · cases src <;> exact hx

lemma Ticks.inClear {A : ConnState → Frame S → Prop} {x y : Moment S} (h : Ticks O A x y)
    (hs : x.2.conn.secure = false) (hx : InClear x.2.conn) : InClear y.2.conn := by
  induction h with
  | refl => exact hx
  | tail hy h ih => exact h.inClear ((Ticks.secure hy).trans hs) ih

theorem outbound_framing (O : Owner S) (hplain : O.env.self.secure = false) (inbound : Bool)
    (es : List (Stimulus S)) (h : O.env.cfg.overflowPolicy ≠ .dropOldest ∨
      (Endpoint.run O inbound es).conn.overflowed = false) :
    Framed (Endpoint.run O inbound es).conn := by
  have hq : _ = _ := run_queued O inbound es h
  have hu : InClear (Endpoint.run O inbound es).conn := by
    obtain ⟨v, hv, ht⟩ := run_ticks (O := O) inbound es
    refine ht.inClear ?_ ?_
    · rcases hv with hv | hv
      · exact hv.secure.trans hplain
      · obtain ⟨err, what, hc⟩ := hv.conn
        exact (ledger_field hc PeerConnection.secure fun _ => rfl).trans hplain
    · rcases hv with hv | hv
      · obtain ⟨keys, x, hc, -⟩ := hv.conn
        exact .congr hc ⟨[_], rfl⟩
      · obtain ⟨err, what, hc⟩ := hv.conn
        exact .congr hc ⟨[], rfl⟩
  obtain ⟨fs, hs⟩ := hu
  refine ⟨fs, ?_, ?_⟩
  · rw [hs, List.map_map]
    exact (List.map_id' fs).symm ▸ List.Sublist.refl fs
  · rw [hs, List.flatMap_map] at hq
    exact ⟨_, hq⟩

def Owner.stalling (overflowPolicy : Overflow) : Owner Suite.transparent where
  env :=
    { Env.plain (Octets.fill [1]) with
      cfg := { maxOutboundQueueBytes := 5, overflowPolicy }
      oracle := { Oracle.calm Suite.transparent with send := fun n => if n = 6 then [.wrote 3] else [.wrote 4096] } }
  acts _ := []

def stallingRun : List (Stimulus Suite.transparent) := [.act (.send .heartbeat), .act (.send .goodbye)]

theorem outbound_framing_stalling : Framed (Endpoint.run (.stalling .dropNewest) true stallingRun).conn :=
  outbound_framing (.stalling .dropNewest) rfl true stallingRun (.inl (by decide))

theorem backlog_cut : ¬Framed (Endpoint.run (.stalling .dropOldest) true stallingRun).conn := by
  have hall : ∀ fs ∈ ((Endpoint.run (.stalling .dropOldest) true stallingRun).conn.sent.map Sent.frame).sublists,
      ¬(Endpoint.run (.stalling .dropOldest) true stallingRun).conn.written <+: fs.flatMap encode := by
    decide +kernel
  rintro ⟨fs, hfs, hw⟩
  exact hall fs (List.mem_sublists.mpr hfs) hw

end Plaintext

end Multimaster
