import Multimaster.Connection.Admitting
import Multimaster.Connection.TickRuns
import Multimaster.Connection.Transparent

/-! What a connection has received and not yet consumed, and that only the parser consumes it. -/

namespace Multimaster

variable {S : Suite}

namespace PeerConnection

def unparsed (c : PeerConnection S) : Bytes × Bytes × Bool := (c.inBuf, c.plainBuf, c.secure)

/-- The bytes in `in_` and `plain_`. -/
def held (c : PeerConnection S) : ℕ := c.inBuf.length + c.plainBuf.length

lemma held_congr {c d : PeerConnection S} (h : d.unparsed = c.unparsed) : d.held = c.held := by
  obtain ⟨hi, hp, -⟩ : d.inBuf = c.inBuf ∧ d.plainBuf = c.plainBuf ∧ d.secure = c.secure := by
    simpa [unparsed] using h
  rw [held, held, hi, hp]

lemma held_consume_le (src : Source) (n : ℕ) (c : PeerConnection S) : (consume src n c).held ≤ c.held := by
  cases src <;> simp [held, consume]

def Spent (M : ℕ) (c : PeerConnection S) : Prop :=
  if sealedMode c then
    readRecord M c.intake.rx c.inBuf = .needMore ∧ tryDecodeFrame (S := S) c.plainBuf M = .needMore
  else tryDecodeFrame (S := S) c.inBuf M = .needMore ∧ c.plainBuf = []

end PeerConnection

lemma readRecord_needMore {M : ℕ} {rx : Option (S.Block 32 × UInt64)} {a : Bytes} :
    readRecord M rx a = .needMore ↔ a.length < 4 ∨
      16 ≤ lengthField a ∧ lengthField a ≤ (M + 64) % 2 ^ 64 ∧ a.length < 4 + lengthField a := by
  unfold readRecord
  cases openRecord rx (frameBody a) <;> grind

namespace PeerConnection.Spent

variable {M : ℕ} {c d : PeerConnection S}

lemma congr (h : c.Spent M) (hu : d.unparsed = c.unparsed) (hm : sealedMode d = sealedMode c) : d.Spent M := by
  obtain ⟨hi, hp, -⟩ : d.inBuf = c.inBuf ∧ d.plainBuf = c.plainBuf ∧ d.secure = c.secure := by
    simpa [unparsed] using hu
  unfold Spent at h ⊢
  rw [hm, hi, hp]
  split_ifs at h ⊢
  · exact ⟨readRecord_needMore.mpr (readRecord_needMore.mp h.1), h.2⟩
  · exact h

lemma held_le (h : c.Spent M) : c.held ≤ (M + 68) + (M + 4) := by
  have hlen (l : Bytes) (hl : tryDecodeFrame (S := S) l M = .needMore) : l.length ≤ M + 4 := by
    rcases tryDecodeFrame_eq_needMore.mp hl with h | ⟨-, hle, hlt⟩ <;> omega
  unfold Spent at h
  unfold held
  split_ifs at h
  · have hp := hlen _ h.2
    have hmod := Nat.mod_le (M + 64) (2 ^ 64)
    rcases readRecord_needMore.mp h.1 with hi | ⟨-, hle, hlt⟩ <;> omega
  · have hi := hlen _ h.1
    rw [h.2, List.length_nil]
    omega

end PeerConnection.Spent

variable {O : Owner S}

structure Unread (w v : Endpoint S) : Prop where
  unread : v.conn.unparsed = w.conn.unparsed
  alive : v.conn.dead = false → w.conn.dead = false
  mode : v.conn.dead = false → sealedMode v.conn = sealedMode w.conn

lemma Unread.trans {a b c : Endpoint S} (h : Unread a b) (k : Unread b c) : Unread a c where
  unread := k.unread.trans h.unread
  alive hd := h.alive (k.alive hd)
  mode hd := (k.mode hd).trans (h.mode (k.alive hd))

lemma Unread.killed {w v : Endpoint S} (hu : v.conn.unparsed = w.conn.unparsed) (hd : v.conn.dead = true) :
    Unread w v where
  unread := hu
  alive h := by
    rw [hd] at h
    cases h
  mode h := by
    rw [hd] at h
    cases h

lemma fail_unread (cat : ErrorCategory) (err : ℤ) (what : String) (w : Endpoint S) :
    Unread w (fail (ownerSink O) 0 cat err what w) := by
  refine .killed ?_ (fail_kills cat err what w)
  cases hd : w.conn.dead with
  | true => rw [fail_dead hd]
  | false =>
    rw [fail_eq hd]
    rfl

lemma markDead_unread (w : Endpoint S) : Unread w (markDead (ownerSink O) 0 w) := by
  unfold markDead
  split_ifs
  · exact ⟨rfl, id, fun _ => rfl⟩
  · exact .killed rfl rfl

lemma unread_respects (O : Owner S) : (ownerSink O).Respects Unread where
  refl _ := ⟨rfl, id, fun _ => rfl⟩
  trans := Unread.trans
  bump _ := ⟨rfl, id, fun _ => rfl⟩
  touch w p f hf := by
    have ht : Touch w.conn ((ownerSink O).modify p f w).conn := hf w.conn
    refine ⟨ht.field PeerConnection.unparsed fun _ => rfl, fun hd => ?_, fun _ => ?_⟩
    · exact (ht.field PeerConnection.dead fun _ => rfl).symm.trans hd
    · exact ht.field sealedMode fun _ => rfl
  report _ _ := ⟨rfl, id, fun _ => rfl⟩
  fail w _ cat err what _ := fail_unread cat err what w

lemma act_unread (w : Endpoint S) (a : Act S) : Unread w (act O w a) := by
  cases a with
  | send f => exact (unread_respects O).enqueue 0 f w
  | close =>
    unfold act closeGracefully
    split_ifs
    · exact (unread_respects O).refl w
    · exact ((unread_respects O).enqueue 0 .goodbye w).trans (markDead_unread _)

lemma respond_unread (w : Endpoint S) : Unread w (respond O w) := by
  have h (l : List (Act S)) (v : Endpoint S) (hv : Unread w v) : Unread w (l.foldl (act O) v) := by
    induction l generalizing v with
    | nil => exact hv
    | cons a l ih => exact ih _ (hv.trans (act_unread v a))
  exact h _ _ ((unread_respects O).bump w)

section Dispatch

variable {w : Endpoint S} {f : Frame S} {src : Source} {n : ℕ}

lemma unread_consume {c d : PeerConnection S} (h : d.unparsed = c.unparsed) (src : Source) (n : ℕ) :
    (consume src n d).unparsed = (consume src n c).unparsed := by
  obtain ⟨hi, hp, hs⟩ : d.inBuf = c.inBuf ∧ d.plainBuf = c.plainBuf ∧ d.secure = c.secure := by
    simpa [PeerConnection.unparsed] using h
  cases src <;> simp [PeerConnection.unparsed, consume, hi, hp, hs]

def Parsed (src : Source) (n : ℕ) (c : PeerConnection S) (r : Bool × Endpoint S) : Prop :=
  r.2.conn.unparsed = (consume src n c).unparsed ∨ r.1 = false ∧ r.2.conn.unparsed = c.unparsed

lemma handleHello_parsed (h : Hello S) :
    Parsed src n w.conn (handleHello (ownerListener O) 0 h n src w) := by
  unfold handleHello
  extract_lets own c w₁
  have h₁ : w₁.conn.unparsed = (consume src n w.conn).unparsed :=
    unread_consume (c := w.conn) (d := w.conn.named h) rfl src n
  split_ifs
  · exact .inl rfl
  · exact .inr ⟨rfl, (fail_unread ..).unread⟩
  · exact .inr ⟨rfl, (fail_unread ..).unread⟩
  · exact .inl ((respond_unread _).unread.trans h₁)
  · exact .inl ((fail_unread ..).unread.trans h₁)
  · split
    · exact .inl ((fail_unread ..).unread.trans h₁)
    · exact .inl (((unread_respects O).sendAuthConfirm 0 _).unread.trans h₁)

lemma handleAuthConfirm_parsed (tag : S.Block 32) (sig : Option (S.Block 64)) :
    Parsed src n w.conn (handleAuthConfirm (ownerListener O) 0 tag sig n src w) := by
  unfold handleAuthConfirm
  extract_lets c w₁
  split_ifs
  · exact .inr ⟨rfl, (fail_unread ..).unread⟩
  · exact .inl (fail_unread ..).unread
  · split
    · exact .inl (fail_unread ..).unread
    · exact .inl (respond_unread _).unread
  · exact .inl (respond_unread _).unread

lemma dispatch_parsed (O : Owner S) (w : Endpoint S) (f : Frame S) (src : Source) (n : ℕ) :
    Parsed src n w.conn (dispatch (ownerListener O) 0 f n src w) := by
  have hstamp : (w.stamped O src f).conn.unparsed = w.conn.unparsed := rfl
  have heat : (consume src n (w.stamped O src f).conn).unparsed = (consume src n w.conn).unparsed :=
    unread_consume hstamp src n
  cases f with
  | hello ack h =>
    have hp : Parsed src n (w.stamped O src (.hello ack h)).conn
      (dispatch (ownerListener O) 0 (.hello ack h) n src w) :=
      handleHello_parsed h
    exact hp.imp (·.trans heat) fun k => ⟨k.1, k.2.trans hstamp⟩
  | authConfirm tag sig =>
    have hp : Parsed src n (w.stamped O src (.authConfirm tag sig)).conn
        (dispatch (ownerListener O) 0 (.authConfirm tag sig) n src w) := handleAuthConfirm_parsed tag sig
    exact hp.imp (·.trans heat) fun k => ⟨k.1, k.2.trans hstamp⟩
  | heartbeat => exact .inl heat
  | goodbye => exact .inl ((fail_unread ..).unread.trans heat)
  | data d =>
    rw [dispatch_data]
    have hr : (respond O (w.stamped O src (.data d))).conn.unparsed = w.conn.unparsed :=
      (respond_unread _).unread.trans hstamp
    split_ifs
    · exact .inr ⟨rfl, (fail_unread ..).unread.trans hstamp⟩
    · exact .inl (unread_consume hr src n)
    · exact .inr ⟨rfl, hr⟩
  | membership m =>
    simp only [dispatch]
    split_ifs
    · exact .inr ⟨rfl, (fail_unread ..).unread.trans hstamp⟩
    · exact .inl ((respond_unread _).unread.trans heat)
  | identity r =>
    simp only [dispatch]
    split_ifs
    · exact .inr ⟨rfl, (fail_unread ..).unread.trans hstamp⟩
    · exact .inl ((respond_unread _).unread.trans heat)

lemma Parsed.held_le {c : PeerConnection S} {r : Bool × Endpoint S} (h : Parsed src n c r) :
    r.2.conn.held ≤ c.held := by
  rcases h with h | ⟨-, h⟩
  · rw [PeerConnection.held_congr h]
    exact PeerConnection.held_consume_le src n c
  · rw [PeerConnection.held_congr h]

end Dispatch

lemma utters_any (O : Owner S) : Utters O fun _ _ => True := ⟨trivial, fun _ _ _ => trivial⟩

def MeshConfig.Unwrapped (cfg : MeshConfig) : Prop := cfg.maxMessageBytes + 68 < 2 ^ 32

instance (cfg : MeshConfig) : Decidable cfg.Unwrapped := inferInstanceAs (Decidable (_ < _))

def Suite.Shrinks (S : Suite) : Prop :=
  ∀ k n ct pt, 16 ≤ ct.length → S.decrypt k n ct = some pt → pt.length + 16 = ct.length

end Multimaster
