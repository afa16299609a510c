import Multimaster.Connection.Draining
import Multimaster.Connection.PulseRuns

/-! What happens to a connection, with every byte and every record of its history. Between
the dispatch of a frame and its removal from the buffer the owner may be called, so a moment also
says which frame is due to be removed. -/

namespace Multimaster

variable {S : Suite}

def PeerConnection.ledger (c : PeerConnection S) : PeerConnection S :=
  { c with
    lastSend := 0, lastRecv := 0, wantWrite := false
    registered := false, interestIn := false, interestOut := false }

lemma ledger_field {c d : PeerConnection S} (h : d.ledger = c.ledger) {α : Type}
    (f : PeerConnection S → α) (hf : ∀ c, f c.ledger = f c) : f d = f c := by
  rw [← hf d, ← hf c, h]

namespace PeerConnection

def say (f : Frame S) (c : PeerConnection S) : PeerConnection S :=
  { c with outBuf := c.outBuf ++ encode f, sent := c.sent ++ [.plain f] }

def put (f : Frame S) (c : PeerConnection S) : PeerConnection S :=
  { c with
    sess := (sealFrame c f).2.2
    outBuf := c.outBuf ++ (sealFrame c f).1
    sent := c.sent ++ [(sealFrame c f).2.1] }

def spill (f : Frame S) (c : PeerConnection S) : PeerConnection S :=
  { c with sess := (sealFrame c f).2.2, overflowed := true }

def evict (f : Frame S) (c : PeerConnection S) : PeerConnection S :=
  { c.put f with outBuf := (sealFrame c f).1, overflowed := true }

def buffer (c : PeerConnection S) : Source → Bytes
  | .inBuf => c.inBuf
  | .plainBuf => c.plainBuf

def failed (cat : ErrorCategory) (err : ℤ) (what : String) (c : PeerConnection S) : PeerConnection S :=
  { c with failure := some (cat, err, what) }.killed

def agreed (own : LocalIdentity S) (h : Hello S) (r : HandshakeResult S) (c : PeerConnection S) :
    PeerConnection S :=
  { c.greeted own h r with sess := some r.session }

def took (l : Bytes) (c : PeerConnection S) : PeerConnection S :=
  { c with inBuf := c.inBuf ++ l, heard := c.heard ++ l }

end PeerConnection

abbrev Due (S : Suite) := Option (Source × Frame S × ℕ)

abbrev Moment (S : Suite) := Due S × Endpoint S

def Frame.forListener : Frame S → Bool
  | .data _ | .membership _ | .identity _ => true
  | _ => false

inductive Blame (O : Owner S) (due : Due S) (c : PeerConnection S) : Prop where
  | frame (hm : sealedMode c = false)
      (h : tryDecodeFrame (S := S) c.inBuf O.env.cfg.maxMessageBytes = .error)
  | record (hm : sealedMode c = true)
      (h : readRecord O.env.cfg.maxMessageBytes c.intake.rx c.inBuf = .malformed ∨
        readRecord O.env.cfg.maxMessageBytes c.intake.rx c.inBuf = .forged)
  | inner (hl : due = none) (hm : sealedMode c = true)
      (h : tryDecodeFrame (S := S) c.plainBuf O.env.cfg.maxMessageBytes = .error)
  | hello (src : Source) (ack : Bool) (h : Hello S) (n : ℕ) (hl : due = some (src, .hello ack h, n))
      (hst : c.state = .handshaking)
      (why : (h.protocolVersion ≠ O.env.self.protocolVersion ∨ h.groupName ≠ O.env.self.groupName) ∨
        h.secure ≠ c.secure ∨
        (O.env.self.hasIdentity && O.env.cfg.requireIdentity && !h.hasIdentity) = true ∨
        doHandshake c.ephKeys h.ephPubKey O.env.self.groupKey O.env.self.groupName = none)
  | confirm (src : Source) (tag : S.Block 32) (sig : Option (S.Block 64)) (n : ℕ)
      (hl : due = some (src, .authConfirm tag sig, n))
      (why : (c.secure = false ∨ c.state ≠ .awaitingConfirm) ∨ tag ≠ c.expectedPeerTag ∨
        (if c.useIdentity then identityFailure O.env.self c sig else none) ≠ none)
  | early (src : Source) (f : Frame S) (n : ℕ) (hl : due = some (src, f, n)) (hst : c.state ≠ .established)
      (hf : f.forListener = true)

def Handling (due : Due S) (c d : PeerConnection S) : Prop :=
  d = c ∨ ∃ src f n, due = some (src, f, n) ∧
    (d = consume src n c ∨ c.state = .handshaking ∧ ∃ h, d = consume src n (c.named h))

inductive Tick (O : Owner S) (A : ConnState → Frame S → Prop) : Moment S → Moment S → Prop where
  | idle {due : Due S} {w v : Endpoint S} (hc : v.conn.ledger = w.conn.ledger) (ht : v.told = w.told) :
      Tick O A (due, w) (due, v)
  | flush {due : Due S} {w v : Endpoint S} (a b : Bytes) (hb : w.conn.outBuf = a ++ b)
      (hc : v.conn.ledger = { w.conn with outBuf := b, written := w.conn.written ++ a }.ledger)
      (ht : v.told = w.told) : Tick O A (due, w) (due, v)
  | put {due : Due S} {w v : Endpoint S} (f : Frame S) (hf : A w.conn.state f) (hd : w.conn.dead = false)
      (hc : v.conn.ledger = (w.conn.put f).ledger) (ht : v.told = w.told) : Tick O A (due, w) (due, v)
  | spill {due : Due S} {w v : Endpoint S} (f : Frame S) (hf : A w.conn.state f) (hd : w.conn.dead = false)
      (hp : O.env.cfg.overflowPolicy = .dropNewest) (hc : v.conn.ledger = (w.conn.spill f).ledger)
      (ht : v.told = w.told) : Tick O A (due, w) (due, v)
  | evict {due : Due S} {w v : Endpoint S} (f : Frame S) (hf : A w.conn.state f) (hd : w.conn.dead = false)
      (hp : O.env.cfg.overflowPolicy = .dropOldest) (hc : v.conn.ledger = (w.conn.evict f).ledger)
      (ht : v.told = w.told) : Tick O A (due, w) (due, v)
  | choke {due : Due S} {w v : Endpoint S} (f : Frame S) (hf : A w.conn.state f) (hd : w.conn.dead = false)
      (hp : O.env.cfg.overflowPolicy = .disconnect) (what : String)
      (hc : v.conn.ledger = ((w.conn.spill f).failed .backpressure 0 what).ledger) (ht : v.told = w.told) :
      Tick O A (due, w) (due, v)
  | die {due : Due S} {w v : Endpoint S} (hd : w.conn.dead = false)
      (hc : v.conn.ledger = w.conn.killed.ledger) (ht : v.told = w.told) : Tick O A (due, w) (due, v)
  | fault {due : Due S} {w v : Endpoint S} (err : ℤ) (what : String) (hd : w.conn.dead = false)
      (hc : v.conn.ledger = (w.conn.failed .socket err what).ledger) (ht : v.told = w.told) :
      Tick O A (due, w) (due, v)
  | blamed {due : Due S} {w v : Endpoint S} (d : PeerConnection S) (hd : w.conn.dead = false)
      (he : Handling due w.conn d)
      (cat : ErrorCategory) (err : ℤ) (what : String) (hw : Blame O due w.conn)
      (hc : v.conn.ledger = (d.failed cat err what).ledger) (ht : v.told = w.told) :
      Tick O A (due, w) (due, v)
  | lapse {due : Due S} {w : Endpoint S} (hd : w.conn.dead = true) : Tick O A (due, w) (none, w)
  | receive {w v : Endpoint S} (l : Bytes) (hd : w.conn.dead = false)
      (hc : v.conn.ledger = (w.conn.took l).ledger) (ht : v.told = w.told) : Tick O A (none, w) (none, v)
  | absorb {w v : Endpoint S} (pt : Bytes) (n : ℕ) (hd : w.conn.dead = false)
      (hm : sealedMode w.conn = true)
      (hr : readRecord O.env.cfg.maxMessageBytes w.conn.intake.rx w.conn.inBuf = .opened pt n)
      (hc : v.conn.ledger = (w.conn.absorb pt n).ledger) (ht : v.told = w.told) :
      Tick O A (none, w) (none, v)
  | stamp {w v : Endpoint S} (src : Source) (f : Frame S) (n : ℕ) (hd : w.conn.dead = false)
      (hm : sealedMode w.conn = decide (src = .plainBuf))
      (hf : tryDecodeFrame (w.conn.buffer src) O.env.cfg.maxMessageBytes = .ok f n)
      (hc : v.conn.ledger = (w.conn.heardFrame src f).ledger) (ht : v.told = w.told) :
      Tick O A (none, w) (some (src, f, n), v)
  | eat {w v : Endpoint S} (src : Source) (f : Frame S) (n : ℕ) (hd : w.conn.dead = false)
      (hf : Passive w.conn f) (hc : v.conn.ledger = (consume src n w.conn).ledger) (ht : v.told = w.told) :
      Tick O A (some (src, f, n), w) (none, v)
  | welcome {w v : Endpoint S} (src : Source) (n : ℕ) (ack : Bool) (h : Hello S) (hd : w.conn.dead = false)
      (hst : w.conn.state = .handshaking) (hs : w.conn.secure = false)
      (hc : v.conn.ledger = { consume src n (w.conn.named h) with state := .established }.ledger)
      (ht : v.told = w.told ++ [h]) : Tick O A (some (src, .hello ack h, n), w) (none, v)
  | accept {w v : Endpoint S} (src : Source) (n : ℕ) (ack : Bool) (h : Hello S) (r : HandshakeResult S)
      (hd : w.conn.dead = false) (hst : w.conn.state = .handshaking)
      (hid : (O.env.self.hasIdentity && O.env.cfg.requireIdentity && !h.hasIdentity) = false)
      (hr : doHandshake w.conn.ephKeys h.ephPubKey O.env.self.groupKey O.env.self.groupName = some r)
      (hc : v.conn.ledger = ((consume src n (w.conn.agreed O.env.self h r)).say (.authConfirm r.myConfirmTag
        (if O.env.self.hasIdentity && h.hasIdentity then some (S.sign
          (idTranscript w.conn.ephKeys.pk h.ephPubKey O.env.self.nodeName) O.env.self.idKeys.sk)
        else none))).ledger) (ht : v.told = w.told) :
      Tick O A (some (src, .hello ack h, n), w) (none, v)
  | confirm {w v : Endpoint S} (src : Source) (n : ℕ) (tag : S.Block 32) (sig : Option (S.Block 64))
      (hd : w.conn.dead = false) (hst : w.conn.state = .awaitingConfirm) (htag : tag = w.conn.expectedPeerTag)
      (hv : (if w.conn.useIdentity then identityFailure O.env.self w.conn sig else none) = none)
      (hc : v.conn.ledger = { consume src n w.conn with state := .established }.ledger)
      (ht : v.told = w.told ++ [w.conn.peerHello]) : Tick O A (some (src, .authConfirm tag sig, n), w) (none, v)

abbrev Ticks (O : Owner S) (A : ConnState → Frame S → Prop) : Moment S → Moment S → Prop :=
  Relation.ReflTransGen (Tick O A)

structure Utters (O : Owner S) (A : ConnState → Frame S → Prop) : Prop where
  goodbye : A .established .goodbye
  acts : ∀ n f, .send f ∈ O.acts n → A .established f

variable {O : Owner S} {A : ConnState → Frame S → Prop} {due : Due S}

section Output

lemma markDead_ticks (w : Endpoint S) : Ticks O A (due, w) (due, markDead (ownerSink O) 0 w) := by
  unfold markDead
  split_ifs with hd
  · exact .refl
  · exact .single (.die (Bool.eq_false_of_not_eq_true hd) rfl rfl)

lemma fail_eq {w : Endpoint S} (hd : w.conn.dead = false) (cat : ErrorCategory) (err : ℤ) (what : String) :
    fail (ownerSink O) 0 cat err what w = { w with conn := w.conn.failed cat err what } := by
  unfold fail markDead
  extract_lets c w₁ w₂
  have h₂ : w₂ = w₁ := by
    unfold w₂
    split <;> rfl
  have hc : ¬c.dead = true := by
    rw [show c.dead = w.conn.dead from rfl, hd]
    exact Bool.false_ne_true
  have hw₁ : ¬((ownerSink O).conn w₁ 0).dead = true := hc
  rw [if_neg hc, h₂, if_neg hw₁]
  rfl

lemma fail_dead {w : Endpoint S} (hd : w.conn.dead = true) (cat : ErrorCategory) (err : ℤ) (what : String) :
    fail (ownerSink O) 0 cat err what w = w := by
  unfold fail
  extract_lets c w₁ w₂
  exact if_pos hd

lemma fail_kills (cat : ErrorCategory) (err : ℤ) (what : String) (w : Endpoint S) :
    (fail (ownerSink O) 0 cat err what w).conn.dead = true := by
  cases hd : w.conn.dead with
  | true => rw [fail_dead hd, hd]
  | false =>
    rw [fail_eq hd]
    rfl

lemma fail_ticks (err : ℤ) (what : String) (w : Endpoint S) :
    Ticks O A (due, w) (due, fail (ownerSink O) 0 .socket err what w) := by
  cases hd : w.conn.dead with
  | true =>
    rw [fail_dead hd]
  | false =>
    rw [fail_eq hd]
    exact .single (.fault err what hd rfl rfl)

lemma updateEpoll_ticks (w : Endpoint S) : Ticks O A (due, w) (due, updateEpoll (ownerSink O) 0 w) := by
  unfold updateEpoll
  extract_lets c needWrite
  split_ifs
  iterate 2 exact .refl
  iterate 2 exact .single (.idle rfl rfl)

lemma flushOutbound_ticks (w : Endpoint S) :
    Ticks O A (due, w) (due, flushOutbound (ownerSink O) 0 w) := by
  unfold flushOutbound
  extract_lets r w₁
  have h₁ : Ticks O A (due, w) (due, w₁) := .single (.flush r.1 r.2.1 (sendLoop_split _ _) rfl rfl)
  split
  · exact h₁.trans (fail_ticks _ _ _)
  · exact h₁.trans (updateEpoll_ticks w₁)

lemma enqueue_ticks {f : Frame S} {w : Endpoint S} (hf : w.conn.dead = false → A w.conn.state f) :
    Ticks O A (due, w) (due, enqueue (ownerSink O) 0 f w) := by
  unfold enqueue
  extract_lets c r w₁ w₂
  split_ifs with hd
  · exact .refl
  · have hd : w.conn.dead = false := Bool.eq_false_of_not_eq_true hd
    split
    · rename_i hp
      rw [fail_eq (w := w₂) hd]
      exact .single (.choke f (hf hd) hd hp _ rfl rfl)
    · rename_i hp
      exact .single (.spill f (hf hd) hd hp rfl rfl)
    · rename_i hp
      unfold transmit
      extract_lets now w₃
      have h₃ : Ticks O A (due, w) (due, w₃) := .single (.evict f (hf hd) hd hp rfl rfl)
      exact h₃.trans (flushOutbound_ticks w₃)
  · have hd : w.conn.dead = false := Bool.eq_false_of_not_eq_true hd
    unfold transmit
    extract_lets now w₃
    have h₃ : Ticks O A (due, w) (due, w₃) := .single (.put f (hf hd) hd rfl rfl)
    exact h₃.trans (flushOutbound_ticks w₃)

end Output

def PastHandshake (w : Endpoint S) : Prop := w.conn.state = .established ∨ w.conn.dead = true

lemma PastHandshake.state {w : Endpoint S} (h : PastHandshake w) (hd : w.conn.dead = false) :
    w.conn.state = .established :=
  h.resolve_right fun k => by rw [hd] at k; cases k

lemma PastHandshake.congr {w v : Endpoint S} (h : PastHandshake w) (hst : v.conn.state = w.conn.state)
    (hd : v.conn.dead = w.conn.dead) : PastHandshake v := by
  rw [PastHandshake, hst, hd]
  exact h

lemma Tick.settled {x y : Moment S} (h : Tick O A x y) (hx : PastHandshake x.2) : PastHandshake y.2 := by
  have keep {w v : Endpoint S} {d : PeerConnection S} (hw : PastHandshake w) (hc : v.conn.ledger = d.ledger)
      (hst : d.state = w.conn.state) (hd : d.dead = w.conn.dead) : PastHandshake v := by
    apply hw.congr
    · exact (ledger_field hc PeerConnection.state fun _ => rfl).trans hst
    · exact (ledger_field hc PeerConnection.dead fun _ => rfl).trans hd
  cases h with
  | idle hc => exact keep hx hc rfl rfl
  | flush a b hb hc => exact keep hx hc rfl rfl
  | put f hf hd hc => exact keep hx hc rfl rfl
  | spill f hf hd hp hc => exact keep hx hc rfl rfl
  | evict f hf hd hp hc => exact keep hx hc rfl rfl
  | choke f hf hd hp what hc => exact .inr (ledger_field hc PeerConnection.dead fun _ => rfl)
  | lapse hd => exact hx
  | receive l hd hc => exact keep hx hc rfl rfl
  | absorb pt n hd hm hr hc => exact keep hx hc rfl rfl
  | stamp src f n hd hm hf hc => exact keep hx hc rfl rfl
  | eat src f n hd hf hc => exact keep hx hc (consume_state src n _) (consume_dead src n _)
  | die hd hc => exact .inr (ledger_field hc PeerConnection.dead fun _ => rfl)
  | fault err what hd hc => exact .inr (ledger_field hc PeerConnection.dead fun _ => rfl)
  | blamed d hd he cat err what hw hc => exact .inr (ledger_field hc PeerConnection.dead fun _ => rfl)
  | accept src n ack h r hd hst =>
    rw [hx.state hd] at hst
    cases hst
  | welcome src n ack h hd hst hs hc => exact .inl (ledger_field hc PeerConnection.state fun _ => rfl)
  | confirm src n tag sig hd hst htag hv hc =>
    exact .inl (ledger_field hc PeerConnection.state fun _ => rfl)

lemma Ticks.settled {x y : Moment S} (h : Ticks O A x y) (hx : PastHandshake x.2) : PastHandshake y.2 := by
  induction h with
  | refl => exact hx
  | tail _ h ih => exact h.settled ih

section Acts

variable (hA : Utters O A)

include hA

lemma act_ticks {a : Act S} (ha : ∀ f, a = .send f → A .established f) {w : Endpoint S} (hw : PastHandshake w) :
    Ticks O A (due, w) (due, act O w a) := by
  have send {f : Frame S} (hf : A .established f) :
      Ticks O A (due, w) (due, enqueue (ownerSink O) 0 f w) := by
    apply enqueue_ticks
    intro hd
    rw [hw.state hd]
    exact hf
  cases a with
  | send f => exact send (ha f rfl)
  | close =>
    unfold act closeGracefully
    split_ifs
    · exact .refl
    · exact (send hA.goodbye).trans (markDead_ticks _)

lemma acts_ticks {l : List (Act S)} (hl : ∀ f, .send f ∈ l → A .established f) {w : Endpoint S}
    (hw : PastHandshake w) : Ticks O A (due, w) (due, l.foldl (act O) w) := by
  induction l generalizing w with
  | nil => exact .refl
  | cons a l ih =>
    have ha : Ticks O A (due, w) (due, act O w a) :=
      act_ticks hA (fun f h => hl f (h ▸ List.mem_cons_self)) hw
    exact ha.trans (ih (fun f hf => hl f (List.mem_cons_of_mem a hf)) (ha.settled hw))

lemma respond_ticks {w : Endpoint S} (hw : PastHandshake w) : Ticks O A (due, w) (due, respond O w) := by
  have h₁ : Ticks O A (due, w) (due, { w with pos := w.pos + 1 }) := .single (.idle rfl rfl)
  exact h₁.trans (acts_ticks hA (hA.acts w.pos) (h₁.settled hw))

end Acts

end Multimaster
