import Multimaster.Basis.Loop
import Multimaster.Connection.Output

/-! The receiving half of `peer_connection.cpp`: handshake, dispatch and the three parsers. -/

namespace Multimaster

def idLabel : Bytes := ascii ['m', 'm', '-', 'i', 'd', '-', 'v', '1']

variable {S : Suite} {W : Type}

def idTranscript (firstEph secondEph : S.Block 32) (name : Bytes) : List (Piece S.Block) :=
  [.text idLabel, .block firstEph, .block secondEph, .text name]

def consume (src : Source) (n : ℕ) (c : PeerConnection S) : PeerConnection S :=
  match src with
  | .inBuf => { c with inBuf := c.inBuf.drop n, plainRead := c.plainRead + n }
  | .plainBuf => { c with plainBuf := c.plainBuf.drop n }

lemma consume_state (src : Source) (n : ℕ) (c : PeerConnection S) : (consume src n c).state = c.state := by
  cases src <;> rfl

lemma consume_dead (src : Source) (n : ℕ) (c : PeerConnection S) : (consume src n c).dead = c.dead := by
  cases src <;> rfl

/-- The identity part of `handle_auth_confirm`: the text of the failure, if any. -/
def identityFailure (self : LocalIdentity S) (c : PeerConnection S) (sig : Option (S.Block 64)) :
    Option String :=
  match sig with
  | none => some "missing identity signature"
  | some sig =>
    if idFromIdentity c.peerHello.idPubKey ≠ c.peerId then some "node id does not match identity key"
    else if !S.verify (idTranscript c.peerHello.ephPubKey c.ephKeys.pk c.peerHello.nodeName) sig
        c.peerHello.idPubKey then some "identity signature invalid"
    else if self.trustedKeys ≠ [] ∧ c.peerHello.idPubKey ∉ self.trustedKeys then
      some "peer identity not in allowlist"
    else none

lemma identityFailure_none {own : LocalIdentity S} {c : PeerConnection S} {sig : Option (S.Block 64)}
    (h : identityFailure own c sig = none) : ∃ s, sig = some s ∧
      idFromIdentity c.peerHello.idPubKey = c.peerId ∧
      S.verify (idTranscript c.peerHello.ephPubKey c.ephKeys.pk c.peerHello.nodeName) s
        c.peerHello.idPubKey = true ∧
      (own.trustedKeys = [] ∨ c.peerHello.idPubKey ∈ own.trustedKeys) := by
  cases sig with
  | none => cases h
  | some s =>
    simp only [identityFailure] at h
    split_ifs at h with hid hv ht
    refine ⟨s, rfl, not_not.mp hid, by simpa using hv, ?_⟩
    rwa [not_and_or, not_not, not_not] at ht

lemma identityFailure_some {own : LocalIdentity S} {c : PeerConnection S} {s : S.Block 64} :
    identityFailure own c (some s) = none ↔ idFromIdentity c.peerHello.idPubKey = c.peerId ∧
      S.verify (idTranscript c.peerHello.ephPubKey c.ephKeys.pk c.peerHello.nodeName) s c.peerHello.idPubKey = true ∧
      (own.trustedKeys = [] ∨ c.peerHello.idPubKey ∈ own.trustedKeys) := by
  constructor
  · intro h
    obtain ⟨t, ht, hs⟩ := identityFailure_none h
    cases ht
    exact hs
  · rintro ⟨hid, hv, ht⟩
    have hlisted : ¬(own.trustedKeys ≠ [] ∧ c.peerHello.idPubKey ∉ own.trustedKeys) := by
      rwa [not_and_or, not_not, not_not]
    rw [identityFailure, if_neg (not_not.mpr hid), hv, if_neg (by simp), if_neg hlisted]

variable (L : Listener S W)

/-- `state_ = Established`, then the listener, which may close the connection. -/
def establish (p : Ptr) (h : Hello S) (w : W) : Bool × W :=
  let w := L.modify p (fun c => { c with state := .established }) w
  let w := L.onPeerHandshake p h w
  (!(L.conn w p).dead, w)

def awaitConfirm (p : Ptr) (h : Hello S) (hr : HandshakeResult S) (w : W) : Bool × W :=
  let self := L.env.self
  let useIdentity := self.hasIdentity && h.hasIdentity
  let w := L.modify p
    (fun c => { c with
      sess := some hr.session
      myConfirmTag := hr.myConfirmTag
      expectedPeerTag := hr.expectedPeerTag
      peerHello := h
      useIdentity
      myIdSig :=
        if useIdentity then S.sign (idTranscript c.ephKeys.pk h.ephPubKey self.nodeName) self.idKeys.sk
        else c.myIdSig
      state := .awaitingConfirm }) w
  let w := sendAuthConfirm L.toSink p w
  (!(L.conn w p).dead, w)

def handleHello (p : Ptr) (h : Hello S) (consumed : ℕ) (src : Source) (w : W) : Bool × W :=
  let self := L.env.self
  let c := L.conn w p
  if c.state ≠ .handshaking then (true, L.modify p (consume src consumed) w)
  else if h.protocolVersion ≠ self.protocolVersion ∨ h.groupName ≠ self.groupName then
    (false, fail L.toSink p .protocol 0 "protocol/group mismatch" w)
  else if h.secure ≠ c.secure then (false, fail L.toSink p .protocol 0 "security mode mismatch" w)
  else
    let w := L.modify p
      (fun c => consume src consumed
        { c with peerId := h.nodeId, peerListenPort := h.tcpListenPort, peerNonce := h.nonce }) w
    if !c.secure then establish L p h w
    else if self.hasIdentity && L.env.cfg.requireIdentity && !h.hasIdentity then
      (false, fail L.toSink p .identity 0 "peer presented no identity" w)
    else
      match doHandshake c.ephKeys h.ephPubKey self.groupKey self.groupName with
      | none => (false, fail L.toSink p .crypto 0 "key agreement failed" w)
      | some hr => awaitConfirm L p h hr w

def handleAuthConfirm (p : Ptr) (tag : S.Block 32) (sig : Option (S.Block 64)) (consumed : ℕ)
    (src : Source) (w : W) : Bool × W :=
  let c := L.conn w p
  if !c.secure || c.state ≠ .awaitingConfirm then
    (false, fail L.toSink p .protocol 0 "unexpected auth confirm" w)
  else
    let w := L.modify p (consume src consumed) w
    if tag ≠ c.expectedPeerTag then (false, fail L.toSink p .crypto 0 "authentication failed" w)
    else
      match (if c.useIdentity then identityFailure L.env.self c sig else none) with
      | some what => (false, fail L.toSink p .identity 0 what w)
      | none => establish L p c.peerHello w

/-- Returns `false` when the connection is dead. -/
def dispatch (p : Ptr) (f : Frame S) (consumed : ℕ) (src : Source) (w : W) : Bool × W :=
  let now := L.now w
  let w := L.modify p
    (fun c => { c with lastRecv := now, dispatched := c.dispatched ++ [(src, f)] }) (L.bump w)
  let alive (w : W) : Bool := !(L.conn w p).dead
  match f with
  | .hello _ h => handleHello L p h consumed src w
  | .authConfirm tag sig => handleAuthConfirm L p tag sig consumed src w
  | .heartbeat => (true, L.modify p (consume src consumed) w)
  | .goodbye =>
    (false, fail L.toSink p .socket 0 "peer said goodbye" (L.modify p (consume src consumed) w))
  | .data d =>
    if (L.conn w p).state ≠ .established then
      (false, fail L.toSink p .protocol 0 "data before handshake" w)
    else
      let w := L.onPeerData p d w
      if alive w then (true, L.modify p (consume src consumed) w) else (false, w)
  | .membership m =>
    if (L.conn w p).state ≠ .established then
      (false, fail L.toSink p .protocol 0 "membership before handshake" w)
    else
      let w := L.onPeerMembership p m (L.modify p (consume src consumed) w)
      (alive w, w)
  | .identity r =>
    if (L.conn w p).state ≠ .established then
      (false, fail L.toSink p .protocol 0 "identity record before handshake" w)
    else
      let w := L.onPeerIdentity p r (L.modify p (consume src consumed) w)
      (alive w, w)

def sealedMode (c : PeerConnection S) : Bool := c.secure && c.state == .established

lemma sealedMode_iff {c : PeerConnection S} :
    sealedMode c = true ↔ c.secure = true ∧ c.state = .established := by
  simp [sealedMode]

def plaintextTurn (p : Ptr) (w : W) : Turn W :=
  match tryDecodeFrame (L.conn w p).inBuf L.env.cfg.maxMessageBytes with
  | .needMore => .stop true w
  | .error => .stop false (fail L.toSink p .protocol 0 "malformed/oversized frame" w)
  | .ok f consumed =>
    let r := dispatch L p f consumed .inBuf w
    if !r.1 then .stop false r.2
    else if sealedMode (L.conn r.2 p) then .stop true r.2
    else .again r.2

def recordTurn (p : Ptr) (w : W) : Turn W :=
  let c := L.conn w p
  if c.inBuf.length < 4 then .stop true w
  else
    let clen := hostOrder (c.inBuf.take 4)
    if clen < 16 ∨ clen > (L.env.cfg.maxMessageBytes + 64) % 2 ^ 64 then
      .stop false (fail L.toSink p .protocol 0 "malformed encrypted record" w)
    else if c.inBuf.length < 4 + clen then .stop true w
    else
      match c.sess.bind (fun s => s.unseal ((c.inBuf.drop 4).take clen)) with
      | none => .stop false (fail L.toSink p .crypto 0 "record authentication failed" w)
      | some (pt, sess) =>
        .again (L.modify p
          (fun c => { c with
            sess := some sess
            plainBuf := c.plainBuf ++ pt
            opened := c.opened ++ [pt]
            inBuf := c.inBuf.drop ((4 + clen) % 2 ^ 32) }) w)

def secureTurn (p : Ptr) (w : W) : Turn W :=
  match tryDecodeFrame (L.conn w p).plainBuf L.env.cfg.maxMessageBytes with
  | .needMore => .stop true w
  | .error => .stop false (fail L.toSink p .protocol 0 "malformed decrypted frame" w)
  | .ok f consumed =>
    let r := dispatch L p f consumed .plainBuf w
    if !r.1 then .stop false r.2 else .again r.2

def parsePlaintext (p : Ptr) (w : W) : Bool × W :=
  turns (plaintextTurn L p) ((L.conn w p).inBuf.length + 1) w

def drainRecords (p : Ptr) (w : W) : Bool × W :=
  turns (recordTurn L p) ((L.conn w p).inBuf.length + 1) w

def parseSecure (p : Ptr) (w : W) : W :=
  (turns (secureTurn L p) ((L.conn w p).plainBuf.length + 1) w).2

def parseInbound (p : Ptr) (w : W) : W :=
  let r := if !sealedMode (L.conn w p) then parsePlaintext L p w else (true, w)
  if !r.1 then r.2
  else if sealedMode (L.conn r.2 p) then
    let q := drainRecords L p r.2
    if !q.1 then q.2 else parseSecure L p q.2
  else r.2

/-- The `recv` loop: the bytes read, and the failure that ended it unless it was `EAGAIN`. -/
def recvLoop : List RecvAnswer → Bytes × Option (ℤ × String)
  | [] => ([], none)
  | .again :: _ => ([], none)
  | .interrupted :: as => recvLoop as
  | .eof :: _ => ([], some (0, "peer closed connection"))
  | .error e :: _ => ([], some (e, "recv failed"))
  | .data l :: as =>
    let r := recvLoop as
    (l ++ r.1, r.2)

def receive (p : Ptr) (l : Bytes) (w : W) : W :=
  L.modify p (fun c => { c with inBuf := c.inBuf ++ l, heard := c.heard ++ l }) w

def doRead (p : Ptr) (w : W) : W :=
  let r := recvLoop (L.env.oracle.recv (L.pos w))
  let w := receive L p r.1 (L.bump w)
  match r.2 with
  | some (e, what) => fail L.toSink p .socket e what w
  | none => parseInbound L p w

def onIoEvents (p : Ptr) (hup out inn : Bool) (w : W) : W :=
  if (L.conn w p).dead then w
  else if hup then fail L.toSink p .socket 0 "peer hangup/error" w
  else
    let w :=
      if (L.conn w p).state == .connectingOut && out then onConnectComplete L.toSink p w else w
    if (L.conn w p).dead then w
    else
      let w := if out then flushOutbound L.toSink p w else w
      if (L.conn w p).dead then w
      else if inn then doRead L p w
      else w

def fromRecords (l : List (Source × Frame S)) : List (Frame S) :=
  l.filterMap fun x => if x.1 = .plainBuf then some x.2 else none

lemma fromRecords_plain (l : List (Source × Frame S)) (f : Frame S) :
    fromRecords (l ++ [(.inBuf, f)]) = fromRecords l := by simp [fromRecords]

lemma fromRecords_record (l : List (Source × Frame S)) (f : Frame S) :
    fromRecords (l ++ [(.plainBuf, f)]) = fromRecords l ++ [f] := by simp [fromRecords]

end Multimaster
