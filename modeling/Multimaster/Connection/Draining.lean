import Multimaster.Wire.Stability
import Multimaster.Connection.AlikeFrames

/-! `drain_records` as a function of what is yet to be read alone. -/

namespace Multimaster

variable {S : Suite} {W : Type}

inductive RecordView where
  | needMore
  | malformed
  | forged
  | opened (pt : Bytes) (consumed : ℕ)

def openRecord (rx : Option (S.Block 32 × UInt64)) (ct : Bytes) : Option Bytes :=
  rx.bind fun k => if ct.length < 16 then none else S.decrypt k.1 (nonceFromCounter k.2) ct

def readRecord (M : ℕ) (rx : Option (S.Block 32 × UInt64)) (inp : Bytes) : RecordView :=
  if inp.length < 4 then .needMore
  else if lengthField inp < 16 ∨ lengthField inp > (M + 64) % 2 ^ 64 then .malformed
  else if inp.length < 4 + lengthField inp then .needMore
  else match openRecord rx (frameBody inp) with
    | none => .forged
    | some pt => .opened pt ((4 + lengthField inp) % 2 ^ 32)

section Stability

variable {M n : ℕ} {rx : Option (S.Block 32 × UInt64)} {a pt : Bytes}

lemma readRecord_opened (h : readRecord M rx a = .opened pt n) :
    4 + lengthField a ≤ a.length ∧ n = (4 + lengthField a) % 2 ^ 32 ∧ 16 ≤ lengthField a ∧
      lengthField a ≤ (M + 64) % 2 ^ 64 ∧ openRecord rx (frameBody a) = some pt := by
  unfold readRecord at h
  cases ho : openRecord rx (frameBody a) <;> grind

lemma readRecord_append (h : readRecord M rx a ≠ .needMore) (b : Bytes) :
    readRecord M rx (a ++ b) = readRecord M rx a := by
  have h₄ : ¬a.length < 4 := fun h₄ => h (if_pos h₄)
  have h₄' : ¬(a ++ b).length < 4 := by
    rw [List.length_append]
    omega
  unfold readRecord at h ⊢
  rw [lengthField_append (by omega) b, if_neg h₄', if_neg h₄]
  rw [if_neg h₄] at h
  by_cases hf : lengthField a < 16 ∨ lengthField a > (M + 64) % 2 ^ 64
  · rw [if_pos hf, if_pos hf]
  · rw [if_neg hf] at h
    have hw : ¬a.length < 4 + lengthField a := fun hw => h (if_pos hw)
    have hw' : ¬(a ++ b).length < 4 + lengthField a := by
      rw [List.length_append]
      omega
    rw [if_neg hf, if_neg hf, if_neg hw, if_neg hw', frameBody_append (by omega)]

end Stability

def PeerConnection.absorb (pt : Bytes) (n : ℕ) (c : PeerConnection S) : PeerConnection S :=
  { c with
    sess := c.sess.map fun s => { s with rxCtr := s.rxCtr + 1 }
    plainBuf := c.plainBuf ++ pt
    opened := c.opened ++ [pt]
    inBuf := c.inBuf.drop n }

lemma unseal_eq (c : PeerConnection S) (ct : Bytes) : (c.sess.bind fun s => s.unseal ct) =
    (openRecord c.intake.rx ct).bind fun pt => c.sess.map fun s => (pt, { s with rxCtr := s.rxCtr + 1 }) := by
  have hrx : c.intake.rx = c.sess.map fun s => (s.rxKey, s.rxCtr) := rfl
  rw [hrx]
  cases c.sess with
  | none => rfl
  | some s =>
    simp only [Option.bind_some, Option.map_some, openRecord, SecureSession.unseal]
    split
    · rfl
    · cases S.decrypt s.rxKey (nonceFromCounter s.rxCtr) ct <;> rfl

lemma recordTurn_eq (L : Listener S W) (p : Ptr) (w : W) : recordTurn L p w =
    match readRecord L.env.cfg.maxMessageBytes (L.conn w p).intake.rx (L.conn w p).inBuf with
    | .needMore => .stop true w
    | .malformed => .stop false (fail L.toSink p .protocol 0 "malformed encrypted record" w)
    | .forged => .stop false (fail L.toSink p .crypto 0 "record authentication failed" w)
    | .opened pt n => .again (L.modify p (PeerConnection.absorb pt n) w) := by
  unfold recordTurn readRecord
  extract_lets c clen
  have hb : (c.inBuf.drop 4).take (lengthField c.inBuf) = frameBody c.inBuf := rfl
  simp only [unseal_eq, show clen = lengthField c.inBuf from rfl, hb]
  split
  · rfl
  · split
    · rfl
    · split
      · rfl
      · cases ho : openRecord c.intake.rx (frameBody c.inBuf) with
        | none => rfl
        | some pt =>
          cases hs : c.sess with
          | none =>
            rw [show c.intake.rx = c.sess.map fun s => (s.rxKey, s.rxCtr) from rfl, hs] at ho
            exact nomatch ho
          | some s =>
            simp only [Option.bind_some, Option.map_some, Sink.modify, PeerConnection.absorb]
            rw [show (L.conn w p).sess = some s from hs]
            rfl

def Intake.absorb (pt : Bytes) (n : ℕ) (x : Intake S) : Intake S where
  inBuf := x.inBuf.drop n
  plainBuf := x.plainBuf ++ pt
  rx := x.rx.map fun k => (k.1, k.2 + 1)

lemma absorb_intake (pt : Bytes) (n : ℕ) (c : PeerConnection S) :
    (c.absorb pt n).intake = c.intake.absorb pt n := by
  cases hs : c.sess <;> simp [PeerConnection.absorb, PeerConnection.intake, Intake.absorb, hs]

lemma absorb_body (pt : Bytes) (n : ℕ) (c : PeerConnection S) : (c.absorb pt n).body = c.body := by
  cases hs : c.sess <;> simp [PeerConnection.absorb, PeerConnection.body, hs]

inductive Drains (M : ℕ) : Intake S → Intake S → Prop where
  | done {x : Intake S} (h : readRecord M x.rx x.inBuf = .needMore) : Drains M x x
  | next {x y : Intake S} {pt : Bytes} {n : ℕ} (h : readRecord M x.rx x.inBuf = .opened pt n)
      (hy : Drains M (x.absorb pt n) y) : Drains M x y

namespace Drains

variable {M : ℕ} {x y : Intake S}

lemma frame (h : Drains M x y) : ∃ p, y.plainBuf = x.plainBuf ++ p ∧
    ∀ q, Drains M { x with plainBuf := q } { y with plainBuf := q ++ p } := by
  induction h with
  | done h => exact ⟨[], by simp, fun q => by simpa using .done h⟩
  | @next x y pt n h _ ih =>
    obtain ⟨p, hp, hq⟩ := ih
    refine ⟨pt ++ p, by rw [hp]; simp [Intake.absorb], fun q => ?_⟩
    have hnext := hq (q ++ pt)
    rw [List.append_assoc] at hnext
    exact .next (n := n) h hnext

end Drains

section Client

variable {C : Client S} {b : Batch} {w v : Served S}

lemma drains_of_stops (h : Stops (recordTurn (C.listener b) 0) w (true, v)) :
    v.calls = w.calls ∧ v.conn.body = w.conn.body ∧
      Drains C.env.cfg.maxMessageBytes w.conn.intake v.conn.intake := by
  generalize hr : (true, v) = r at h
  induction h with
  | stop h =>
    cases hr
    rw [recordTurn_eq] at h
    split at h
    · cases h
      exact ⟨rfl, rfl, .done ‹_›⟩
    all_goals exact nomatch h
  | @again w u _ h _ ih =>
    rw [recordTurn_eq] at h
    split at h
    · exact nomatch h
    · exact nomatch h
    · exact nomatch h
    · rename_i pt n ho
      cases h
      obtain ⟨hc, hb, hd⟩ := ih hr
      have hi := absorb_intake pt n w.conn
      have hb' := absorb_body pt n w.conn
      refine ⟨hc, hb.trans hb', .next ho ?_⟩
      rw [← hi]
      exact hd

lemma stops_of_drains {y : Intake S} (h : Drains C.env.cfg.maxMessageBytes w.conn.intake y) :
    ∃ v, Stops (recordTurn (C.listener b) 0) w (true, v) ∧ v.conn.intake = y := by
  generalize hx : w.conn.intake = x at h
  induction h generalizing w with
  | done h =>
    subst hx
    refine ⟨w, .stop ?_, rfl⟩
    rw [recordTurn_eq]
    show (match readRecord C.env.cfg.maxMessageBytes w.conn.intake.rx w.conn.intake.inBuf with
      | .needMore => _ | .malformed => _ | .forged => _ | .opened _ _ => _) = _
    rw [h]
  | @next x y pt n h _ ih =>
    subst hx
    obtain ⟨v, hv, hy⟩ := ih (w := (C.sink b).modify 0 (PeerConnection.absorb pt n) w)
      (absorb_intake pt n w.conn)
    refine ⟨v, .again ?_ hv, hy⟩
    rw [recordTurn_eq]
    show (match readRecord C.env.cfg.maxMessageBytes w.conn.intake.rx w.conn.intake.inBuf with
      | .needMore => _ | .malformed => _ | .forged => _ | .opened _ _ => _) = _
    rw [h]
    rfl

end Client

end Multimaster
