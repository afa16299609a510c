import Multimaster.Connection.Unread

/-! What the loops of `parse_inbound` leave behind. -/

namespace Multimaster

variable {S : Suite}
variable {O : Owner S}

section Turns

variable {w v : Endpoint S}

lemma plaintextTurn_held (O : Owner S) (w : Endpoint S) :
    (plaintextTurn (ownerListener O) 0 w).world.conn.held ≤ w.conn.held := by
  unfold plaintextTurn
  split
  · exact le_rfl
  · exact (PeerConnection.held_congr (fail_unread ..).unread).le
  · extract_lets r
    have hr : r.2.conn.held ≤ w.conn.held := (dispatch_parsed O w _ .inBuf _).held_le
    split_ifs <;> exact hr

lemma secureTurn_held (O : Owner S) (w : Endpoint S) :
    (secureTurn (ownerListener O) 0 w).world.conn.held ≤ w.conn.held := by
  unfold secureTurn
  split
  · exact le_rfl
  · exact (PeerConnection.held_congr (fail_unread ..).unread).le
  · extract_lets r
    have hr : r.2.conn.held ≤ w.conn.held := (dispatch_parsed O w _ .plainBuf _).held_le
    split_ifs <;> exact hr

lemma readRecord_lengths {M n : ℕ} {rx : Option (S.Block 32 × UInt64)} {a pt : Bytes} (hS : S.Shrinks)
    (hM : M + 68 < 2 ^ 32) (h : readRecord M rx a = .opened pt n) : n ≤ a.length ∧ pt.length + 20 = n := by
  obtain ⟨hlen, hn, h16, hle, ho⟩ := readRecord_opened h
  have hbody : (frameBody a).length = lengthField a := by
    rw [frameBody, List.length_take, List.length_drop]
    omega
  have hpt : pt.length + 16 = lengthField a := by
    unfold openRecord at ho
    obtain ⟨k, -, hk⟩ := Option.bind_eq_some_iff.mp ho
    split_ifs at hk
    rw [← hbody]
    exact hS _ _ _ _ (by omega) hk
  rw [Nat.mod_eq_of_lt (by omega)] at hle
  rw [Nat.mod_eq_of_lt (by omega)] at hn
  omega

lemma recordTurn_held (hS : S.Shrinks) (hM : O.env.cfg.Unwrapped) (w : Endpoint S) :
    (recordTurn (ownerListener O) 0 w).world.conn.held ≤ w.conn.held := by
  rw [recordTurn_eq]
  split
  · exact le_rfl
  · exact (PeerConnection.held_congr (fail_unread ..).unread).le
  · exact (PeerConnection.held_congr (fail_unread ..).unread).le
  · rename_i pt n h
    obtain ⟨hn, hpt⟩ := readRecord_lengths hS hM h
    have hn : n ≤ w.conn.inBuf.length := hn
    change (w.conn.inBuf.drop n).length + (w.conn.plainBuf ++ pt).length ≤ w.conn.inBuf.length + w.conn.plainBuf.length
    rw [List.length_drop, List.length_append]
    omega

lemma Parsed.eaten {src : Source} {n : ℕ} {c : PeerConnection S} {r : Bool × Endpoint S} (h : Parsed src n c r)
    (hr : r.1 = true) : r.2.conn.unparsed = (consume src n c).unparsed :=
  h.resolve_right fun k => by
    rw [hr] at k
    cases k.1

lemma plaintextTurn_again (hM : O.env.cfg.Unwrapped) (h : plaintextTurn (ownerListener O) 0 w = .again v) :
    v.conn.inBuf.length < w.conn.inBuf.length ∧ v.conn.plainBuf = w.conn.plainBuf := by
  have hM : O.env.cfg.maxMessageBytes + 68 < 2 ^ 32 := hM
  unfold plaintextTurn at h
  split at h
  · cases h
  · cases h
  · rename_i f n hf
    extract_lets r at h
    split_ifs at h with ha hs
    cases h
    have hn : 0 < n ∧ n ≤ w.conn.inBuf.length := consumed_pos (M := O.env.cfg.maxMessageBytes) (by omega) hf
    have hr := (dispatch_parsed O w f .inBuf n).eaten (by simpa using ha)
    obtain ⟨hi, hp, -⟩ : r.2.conn.inBuf = w.conn.inBuf.drop n ∧ r.2.conn.plainBuf = w.conn.plainBuf ∧
        r.2.conn.secure = w.conn.secure := by simpa [PeerConnection.unparsed, consume] using hr
    rw [hi, hp, List.length_drop]
    exact ⟨by omega, rfl⟩

lemma secureTurn_again (hM : O.env.cfg.Unwrapped) (h : secureTurn (ownerListener O) 0 w = .again v) :
    v.conn.plainBuf.length < w.conn.plainBuf.length ∧ v.conn.inBuf = w.conn.inBuf := by
  have hM : O.env.cfg.maxMessageBytes + 68 < 2 ^ 32 := hM
  unfold secureTurn at h
  split at h
  · cases h
  · cases h
  · rename_i f n hf
    extract_lets r at h
    split_ifs at h with ha
    cases h
    have hn : 0 < n ∧ n ≤ w.conn.plainBuf.length := consumed_pos (M := O.env.cfg.maxMessageBytes) (by omega) hf
    have hr := (dispatch_parsed O w f .plainBuf n).eaten (by simpa using ha)
    obtain ⟨hi, hp, -⟩ : r.2.conn.inBuf = w.conn.inBuf ∧ r.2.conn.plainBuf = w.conn.plainBuf.drop n ∧
        r.2.conn.secure = w.conn.secure := by simpa [PeerConnection.unparsed, consume] using hr
    rw [hi, hp, List.length_drop]
    exact ⟨by omega, rfl⟩

lemma recordTurn_again (hM : O.env.cfg.Unwrapped) (h : recordTurn (ownerListener O) 0 w = .again v) :
    v.conn.inBuf.length < w.conn.inBuf.length := by
  have hM : O.env.cfg.maxMessageBytes + 68 < 2 ^ 32 := hM
  rw [recordTurn_eq] at h
  split at h
  · cases h
  · cases h
  · cases h
  · rename_i pt n ho
    cases h
    obtain ⟨hlen, hn, h16, hle, -⟩ := readRecord_opened ho
    have hlen : 4 + lengthField w.conn.inBuf ≤ w.conn.inBuf.length := hlen
    have hn : n = (4 + lengthField w.conn.inBuf) % 2 ^ 32 := hn
    have hle : lengthField w.conn.inBuf ≤ (O.env.cfg.maxMessageBytes + 64) % 2 ^ 64 := hle
    change (w.conn.inBuf.drop n).length < _
    rw [Nat.mod_eq_of_lt (by omega)] at hle
    rw [Nat.mod_eq_of_lt (by omega)] at hn
    rw [List.length_drop]
    omega

def PlainEnd (M : ℕ) : Bool → Endpoint S → Prop
  | false, v => v.conn.dead = true
  | true, v => v.conn.dead = false ∧ v.conn.plainBuf = [] ∧
    (sealedMode v.conn = true ∨ sealedMode v.conn = false ∧ tryDecodeFrame (S := S) v.conn.inBuf M = .needMore)

def DrainEnd (M : ℕ) : Bool → Endpoint S → Prop
  | false, v => v.conn.dead = true
  | true, v => v.conn.dead = false ∧ sealedMode v.conn = true ∧
    readRecord M v.conn.intake.rx v.conn.inBuf = .needMore

def Rested (M : ℕ) (v : Endpoint S) : Prop := v.conn.dead = true ∨ v.conn.Spent M

lemma plaintextTurn_stop {b : Bool} (hd : w.conn.dead = false) (hm : sealedMode w.conn = false)
    (hp : w.conn.plainBuf = []) (h : plaintextTurn (ownerListener O) 0 w = .stop b v) :
    PlainEnd O.env.cfg.maxMessageBytes b v := by
  unfold plaintextTurn at h
  split at h
  · rename_i hn
    cases h
    exact ⟨hd, hp, .inr ⟨hm, hn⟩⟩
  · cases h
    exact fail_kills ..
  · rename_i f n hf
    have ho : Offers O w .inBuf f n := ⟨hd, hm, hf⟩
    extract_lets r at h
    have hr : r.1 = !r.2.conn.dead := (dispatch_ticks (utters_any O) ho).alive
    split_ifs at h with ha hs
    · cases h
      change r.2.conn.dead = true
      simpa [hr] using ha
    · cases h
      have heat := (dispatch_parsed O w f .inBuf n).eaten (by simpa using ha)
      have hp' : r.2.conn.plainBuf = w.conn.plainBuf := congrArg (·.2.1) heat
      exact ⟨by simpa [hr] using ha, hp'.trans hp, .inl hs⟩

lemma secureTurn_stop {b : Bool} (hd : w.conn.dead = false) (hm : sealedMode w.conn = true)
    (hr : readRecord O.env.cfg.maxMessageBytes w.conn.intake.rx w.conn.inBuf = .needMore)
    (h : secureTurn (ownerListener O) 0 w = .stop b v) : Rested O.env.cfg.maxMessageBytes v := by
  unfold secureTurn at h
  split at h
  · rename_i hn
    cases h
    refine .inr ?_
    rw [PeerConnection.Spent, if_pos hm]
    exact ⟨hr, hn⟩
  · cases h
    exact .inl (fail_kills ..)
  · rename_i f n hf
    have ho : Offers O w .plainBuf f n := ⟨hd, hm, hf⟩
    extract_lets r at h
    have hr : r.1 = !r.2.conn.dead := (dispatch_ticks (utters_any O) ho).alive
    split_ifs at h with ha
    cases h
    exact .inl (by simpa [hr] using ha)

lemma recordTurn_stop {b : Bool} (hd : w.conn.dead = false) (hm : sealedMode w.conn = true)
    (h : recordTurn (ownerListener O) 0 w = .stop b v) : DrainEnd O.env.cfg.maxMessageBytes b v := by
  rw [recordTurn_eq] at h
  split at h
  · rename_i hn
    cases h
    exact ⟨hd, hm, hn⟩
  · cases h
    exact fail_kills ..
  · cases h
    exact fail_kills ..
  · cases h

end Turns

section Parsers

variable {w : Endpoint S} (hM : O.env.cfg.Unwrapped)

include hM

lemma parsePlaintext_ends (hd : w.conn.dead = false) (hm : sealedMode w.conn = false) (hp : w.conn.plainBuf = []) :
    PlainEnd O.env.cfg.maxMessageBytes (parsePlaintext (ownerListener O) 0 w).1
      (parsePlaintext (ownerListener O) 0 w).2 := by
  let P (w : Endpoint S) : Prop := (w.conn.dead = false ∧ sealedMode w.conn = false) ∧ w.conn.plainBuf = []
  have again (w v : Endpoint S) (hw : P w) (h : plaintextTurn (ownerListener O) 0 w = .again v) :
      P v ∧ v.conn.inBuf.length < w.conn.inBuf.length := by
    obtain ⟨hlt, hkeep⟩ := plaintextTurn_again hM h
    exact ⟨⟨(plaintextTurn_ticks (utters_any O) w hw.1).2.1 v h, hkeep.trans hw.2⟩, hlt⟩
  exact Stops.ends_of_measure (fun w => w.conn.inBuf.length) again
    (fun w b v hw h => plaintextTurn_stop hw.1.1 hw.1.2 hw.2 h) ⟨⟨hd, hm⟩, hp⟩ (Nat.lt_succ_self _)

lemma drainRecords_ends (hd : w.conn.dead = false) (hm : sealedMode w.conn = true) :
    DrainEnd O.env.cfg.maxMessageBytes (drainRecords (ownerListener O) 0 w).1
      (drainRecords (ownerListener O) 0 w).2 := by
  let P (w : Endpoint S) : Prop := w.conn.dead = false ∧ sealedMode w.conn = true
  have again (w v : Endpoint S) (hw : P w) (h : recordTurn (ownerListener O) 0 w = .again v) :
      P v ∧ v.conn.inBuf.length < w.conn.inBuf.length :=
    ⟨(recordTurn_ticks (A := fun _ _ => True) w hw).2.1 v h, recordTurn_again hM h⟩
  exact Stops.ends_of_measure (fun w => w.conn.inBuf.length) again
    (fun w b v hw h => recordTurn_stop hw.1 hw.2 h) ⟨hd, hm⟩ (Nat.lt_succ_self _)

lemma parseSecure_ends (hd : w.conn.dead = false) (hm : sealedMode w.conn = true)
    (hr : readRecord O.env.cfg.maxMessageBytes w.conn.intake.rx w.conn.inBuf = .needMore) :
    Rested O.env.cfg.maxMessageBytes (parseSecure (ownerListener O) 0 w) := by
  let P (v : Endpoint S) : Prop := (v.conn.dead = false ∧ sealedMode v.conn = true) ∧
    readRecord O.env.cfg.maxMessageBytes v.conn.intake.rx v.conn.inBuf = .needMore
  have again (w v : Endpoint S) (hw : P w) (h : secureTurn (ownerListener O) 0 w = .again v) :
      P v ∧ v.conn.plainBuf.length < w.conn.plainBuf.length := by
    obtain ⟨hlt, hkeep⟩ := secureTurn_again hM h
    refine ⟨⟨(secureTurn_ticks (utters_any O) w hw.1).2.1 v h, ?_⟩, hlt⟩
    rw [hkeep]
    exact readRecord_needMore.mpr (readRecord_needMore.mp hw.2)
  exact Stops.ends_of_measure (Q := fun _ => Rested O.env.cfg.maxMessageBytes) (fun w => w.conn.plainBuf.length)
    again (fun w b v hw h => secureTurn_stop hw.1.1 hw.1.2 hw.2 h) ⟨⟨hd, hm⟩, hr⟩ (Nat.lt_succ_self _)

lemma parseInbound_ends (hd : w.conn.dead = false) (hp : sealedMode w.conn = false → w.conn.plainBuf = []) :
    Rested O.env.cfg.maxMessageBytes (parseInbound (ownerListener O) 0 w) := by
  unfold parseInbound
  extract_lets r q
  have hr : PlainEnd O.env.cfg.maxMessageBytes r.1 r.2 ∨ r = (true, w) ∧ sealedMode w.conn = true := by
    cases hm : sealedMode w.conn with
    | false =>
      have he : r = parsePlaintext (ownerListener O) 0 w := if_pos (congrArg (!·) hm)
      rw [he]
      exact .inl (parsePlaintext_ends hM hd hm (hp hm))
    | true =>
      have he : r = (true, w) := if_neg (by rw [show sealedMode ((ownerListener O).conn w 0) = true from hm]; decide)
      exact .inr ⟨he, rfl⟩
  have hgo (ha : r.1 = true) (hs : sealedMode r.2.conn = true) :
      DrainEnd O.env.cfg.maxMessageBytes q.1 q.2 := by
    refine drainRecords_ends hM ?_ hs
    rcases hr with hr | ⟨hr, -⟩
    · rw [ha] at hr
      exact hr.1
    · rw [hr]
      exact hd
  split_ifs with ha hs hb
  · have ha : r.1 = false := by simpa using ha
    rcases hr with hr | ⟨hr, -⟩
    · rw [ha] at hr
      exact .inl hr
    · rw [hr] at ha
      cases ha
  · have hq := hgo (by simpa using ha) hs
    rw [show q.1 = false by simpa using hb] at hq
    exact .inl hq
  · have hq := hgo (by simpa using ha) hs
    rw [show q.1 = true by simpa using hb] at hq
    exact parseSecure_ends hM hq.1 hq.2.1 hq.2.2
  · have hs : ¬sealedMode r.2.conn = true := hs
    rcases hr with hr | ⟨hr, hm⟩
    · rw [show r.1 = true by simpa using ha] at hr
      obtain ⟨-, hp', hs' | ⟨-, hn⟩⟩ := hr
      · exact (hs hs').elim
      · refine .inr ?_
        rw [PeerConnection.Spent, if_neg hs]
        exact ⟨hn, hp'⟩
    · rw [hr] at hs
      exact (hs hm).elim

end Parsers

end Multimaster
