import Multimaster.Connection.State

/-! The sending and closing half of `peer_connection.cpp`. -/

namespace Multimaster

variable {S : Suite} {W : Type}

def PeerConnection.killed (c : PeerConnection S) : PeerConnection S :=
  { c with
    dead := true, state := .dead, registered := false
    interestIn := c.interestIn && !c.registered
    interestOut := c.interestOut && !c.registered }

/-- The Hello that `send_hello` makes of the connection, once it has its ephemeral keys. -/
def LocalIdentity.hello (own : LocalIdentity S) (c : PeerConnection S) : Hello S where
  nodeId := own.nodeId
  protocolVersion := own.protocolVersion
  tcpListenPort := own.listenPort
  groupName := own.groupName
  nonce := c.localNonce
  secure := c.secure
  ephPubKey := if c.secure then c.ephKeys.pk else S.zero 32
  hasIdentity := own.hasIdentity
  idPubKey := if own.hasIdentity then own.idKeys.pk else S.zero 32
  nodeName := if own.hasIdentity then own.nodeName else []

/-- The frame of `send_auth_confirm`. -/
def PeerConnection.authConfirm (c : PeerConnection S) : Frame S :=
  .authConfirm c.myConfirmTag (if c.useIdentity then some c.myIdSig else none)

variable (K : Sink S W)

def markDead (p : Ptr) (w : W) : W :=
  if (K.conn w p).dead then w else K.onPeerClosed p (K.modify p PeerConnection.killed w)

def fail (p : Ptr) (cat : ErrorCategory) (err : ℤ) (what : String) (w : W) : W :=
  let c := K.conn w p
  if c.dead then w
  else
    let w := K.modify p (fun c => { c with failure := some (cat, err, what) }) w
    let w :=
      if cat ≠ .socket ∨ err ≠ 0 then
        K.reportError
          { category := cat, err, what,
            peer := if c.peerId.isZero then none else some c.peerId } w
      else w
    markDead K p w

def updateEpoll (p : Ptr) (w : W) : W :=
  let c := K.conn w p
  if c.dead || !c.registered then w
  else
    let needWrite := !c.outBuf.isEmpty || c.state == .connectingOut
    if needWrite == c.wantWrite then w
    else if K.env.oracle.epoll (K.pos w) then
      K.modify p
        (fun c => { c with wantWrite := needWrite, interestIn := true, interestOut := needWrite })
        (K.bump w)
    else K.bump w

/-- The `send` loop on the bytes of `out_`: what the socket took, what is left, and the error
that ended it. -/
def sendLoop : List SendAnswer → Bytes → Bytes × Bytes × Option ℤ
  | _, [] => ([], [], none)
  | [], out => ([], out, none)
  | .again :: _, out => ([], out, none)
  | .interrupted :: as, out => sendLoop as out
  | .error e :: _, out => ([], out, some e)
  | .wrote 0 :: _, out => ([], out, some 0)
  | .wrote n :: as, out =>
    let r := sendLoop as (out.drop n)
    (out.take n ++ r.1, r.2)

lemma sendLoop_split (as : List SendAnswer) (out : Bytes) :
    out = (sendLoop as out).1 ++ (sendLoop as out).2.1 := by
  fun_induction sendLoop as out with
  | case7 n as out _ _ r ih =>
    rw [List.append_assoc, ← ih, List.take_append_drop]
  | case4 _ _ _ ih => exact ih
  | _ => rfl

def flushOutbound (p : Ptr) (w : W) : W :=
  let r := sendLoop (K.env.oracle.send (K.pos w)) (K.conn w p).outBuf
  let w := K.modify p (fun c => { c with outBuf := r.2.1, written := c.written ++ r.1 }) (K.bump w)
  match r.2.2 with
  | some e => fail K p .socket e "send failed" w
  | none => updateEpoll K p w

/-- Append to `out_`, stamp `lastSend_` and flush. -/
def transmit (p : Ptr) (rec : Bytes) (item : Sent S) (w : W) : W :=
  let now := K.now w
  let w := K.modify p
    (fun c => { c with outBuf := c.outBuf ++ rec, lastSend := now, sent := c.sent ++ [item] })
    (K.bump w)
  flushOutbound K p w

def sendHello (p : Ptr) (w : W) : W :=
  let self := K.env.self
  let c := K.conn w p
  let ephKeys := if c.secure then genEphemeral (K.env.oracle.secret (K.pos w)) else c.ephKeys
  let w := K.modify p (fun c => { c with ephKeys }) (K.bump w)
  let h := self.hello { c with ephKeys }
  transmit K p (encode (.hello c.inbound h)) (.plain (.hello c.inbound h)) w

def sendAuthConfirm (p : Ptr) (w : W) : W :=
  let c := K.conn w p
  let f := c.authConfirm
  transmit K p (encode f) (.plain f) w

/-- The bytes of `enqueue`'s `rec`, the record of what they are, and the session after sealing. -/
def sealFrame (c : PeerConnection S) (f : Frame S) : Bytes × Sent S × Option (SecureSession S) :=
  match c.sess with
  | some sess =>
    if c.secure && c.state == .established then
      let r := sess.seal (encode f)
      (r.1, .record sess.txKey sess.txCtr f, some r.2)
    else (encode f, .plain f, some sess)
  | none => (encode f, .plain f, none)

lemma sealFrame_frame (c : PeerConnection S) (f : Frame S) : (sealFrame c f).2.1.frame = f := by
  unfold sealFrame
  split
  · split_ifs <;> rfl
  · rfl

def enqueue (p : Ptr) (f : Frame S) (w : W) : W :=
  let c := K.conn w p
  if c.dead then w
  else
    let r := sealFrame c f
    let w := K.modify p (fun c => { c with sess := r.2.2 }) w
    if c.outBuf.length + r.1.length > K.env.cfg.maxOutboundQueueBytes then
      let w := K.modify p (fun c => { c with overflowed := true }) w
      match K.env.cfg.overflowPolicy with
      | .disconnect => fail K p .backpressure 0 "outbound queue overflow" w
      | .dropNewest =>
        K.reportError
          { category := .backpressure, err := 0, what := "dropped outbound (newest)",
            peer := some c.peerId } w
      | .dropOldest => transmit K p r.1 r.2.1 (K.modify p (fun c => { c with outBuf := [] }) w)
    else transmit K p r.1 r.2.1 w

def sendRaw (p : Ptr) (f : Frame S) (w : W) : W := enqueue K p f w

def maybeHeartbeat (p : Ptr) (now interval : ℤ) (w : W) : W :=
  let c := K.conn w p
  if c.state ≠ .established ∨ c.dead then w
  else if now - c.lastSend ≥ interval then sendRaw K p .heartbeat w
  else w

def closeGracefully (p : Ptr) (w : W) : W :=
  if (K.conn w p).dead then w
  else markDead K p (enqueue K p .goodbye w)

/-- Returns `false` when the connection is already dead. -/
def startConnect (p : Ptr) (w : W) : Bool × W :=
  let answer := K.env.oracle.connect (K.pos w)
  let w := K.bump w
  match answer with
  | .noSocket e => (false, fail K p .socket e "socket() failed" w)
  | .refused e => (false, fail K p .socket e "connect() failed" w)
  | .epollFailed e => (false, fail K p .socket e "epoll add failed" w)
  | .inProgress =>
    (true, K.modify p (fun c => { c with registered := true, wantWrite := true, interestOut := true }) w)

def onConnectComplete (p : Ptr) (w : W) : W :=
  let err := K.env.oracle.soError (K.pos w)
  let w := K.bump w
  if err ≠ 0 then fail K p .socket err "async connect failed" w
  else
    let w := K.modify p (fun c => { c with state := .handshaking }) w
    let ok := (K.conn w p).registered && K.env.oracle.epoll (K.pos w)
    let w := K.bump w
    let w :=
      if ok then
        K.modify p (fun c => { c with wantWrite := false, interestIn := true, interestOut := false }) w
      else w
    sendHello K p w

def startInbound (p : Ptr) (w : W) : W :=
  let ok := K.env.oracle.epoll (K.pos w)
  let w := K.bump w
  let w := if ok then K.modify p (fun c => { c with registered := true, interestIn := true }) w else w
  sendHello K p w

end Multimaster
