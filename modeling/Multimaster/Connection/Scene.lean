import Multimaster.Connection.Input

/-! Many connections under a listener that may send on any of them, ping it or close it from inside each of its
callbacks, and what every connection sees of that. -/

namespace Multimaster

variable {S : Suite}

inductive Callback (S : Suite) where
  | handshake (h : Hello S)
  | data (d : DataView)
  | membership (m : MembershipRecord)
  | identity (r : IdentityRecord S)
  | closed

inductive Wish (S : Suite) where
  | send (p : Ptr) (f : Frame S)
  | heartbeat (p : Ptr) (now interval : ℤ)
  | close (p : Ptr)

def Wish.target : Wish S → Ptr
  | .send p _ | .heartbeat p _ _ | .close p => p

/-- A node: how its connections are constructed, and what its listener asks for in the callback made at each point. -/
structure Play (S : Suite) where
  env : Env S
  inbound : Ptr → Bool
  addr : Ptr → Addr
  nonce : Ptr → UInt64
  created : Ptr → ℤ
  acts : ℕ → List (Wish S)

/-- The connection objects. Two history fields: every value that an object has had, and the calls of the listener. -/
structure Scene (S : Suite) where
  conns : Ptr → PeerConnection S
  opened : Ptr → Bool := fun _ => false
  past : Ptr → List (PeerConnection S)
  log : Ptr → List (Callback S) := fun _ => []
  pos : ℕ := 0

namespace Scene

def set (p : Ptr) (c : PeerConnection S) (w : Scene S) : Scene S :=
  { w with conns := Function.update w.conns p c, past := Function.update w.past p (w.past p ++ [c]) }

def call (p : Ptr) (x : Callback S) (w : Scene S) : Scene S :=
  { w with log := Function.update w.log p (w.log p ++ [x]) }

end Scene

variable (P : Play S)

def Play.fresh (p : Ptr) : PeerConnection S where
  peerAddr := P.addr p
  inbound := P.inbound p
  state := if P.inbound p then .handshaking else .connectingOut
  localNonce := P.nonce p
  secure := P.env.self.secure
  createdAt := P.created p
  lastRecv := P.created p
  lastSend := P.created p

def stage (inner : Scene S → Scene S) : Sink S (Scene S) where
  env := P.env
  conn w p := w.conns p
  setConn := Scene.set
  pos := Scene.pos
  bump w := { w with pos := w.pos + 1 }
  onPeerClosed p w := inner (w.call p .closed)
  reportError _ w := inner w

def stageListener (inner : Scene S → Scene S) : Listener S (Scene S) where
  toSink := stage P inner
  onPeerHandshake p h w := inner (w.call p (.handshake h))
  onPeerData p d w := inner (w.call p (.data d))
  onPeerMembership p m w := inner (w.call p (.membership m))
  onPeerIdentity p r w := inner (w.call p (.identity r))

def grant (K : Sink S (Scene S)) (w : Scene S) (a : Wish S) : Scene S :=
  if w.opened a.target then
    match a with
    | .send p f => sendRaw K p f w
    | .heartbeat p now interval => maybeHeartbeat K p now interval w
    | .close p => closeGracefully K p w
  else w

def Play.callback : ℕ → Scene S → Scene S
  | 0, w => w
  | k + 1, w => (P.acts w.pos).foldl (grant (stage P (Play.callback k))) { w with pos := w.pos + 1 }

def Scene.initial : Scene S where
  conns := P.fresh
  past p := [P.fresh p]

def openConnection (K : Sink S (Scene S)) (p : Ptr) (w : Scene S) : Scene S :=
  let w := { w with opened := Function.update w.opened p true }
  if P.inbound p then startInbound K p w else (startConnect K p w).2

inductive Cue (S : Suite) where
  | construct (p : Ptr)
  | io (p : Ptr) (hup out inn : Bool)
  | wish (a : Wish S)

def follow (k : ℕ) (w : Scene S) : Cue S → Scene S
  | .construct p => if w.opened p then w else openConnection P (stage P (P.callback k)) p w
  | .io p hup out inn =>
    if w.opened p then onIoEvents (stageListener P (P.callback k)) p hup out inn w else w
  | .wish a => grant (stage P (P.callback k)) w a

def Scene.run (k : ℕ) (es : List (Cue S)) : Scene S := es.foldl (follow P k) (Scene.initial P)

inductive Phase where
  | born
  | connecting
  | hello
  | confirm
  | flush
  | rest
  deriving DecidableEq

def Phase.ready : Phase → Bool
  | .flush | .rest => true
  | _ => false

structure Track (S : Suite) where
  conn : PeerConnection S
  past : List (PeerConnection S)
  log : List (Callback S)
  phase : Phase

def Track.set (s : Track S) (d : PeerConnection S) (φ : Phase) : Track S :=
  { s with conn := d, past := s.past ++ [d], phase := φ }

def Scene.track (w : Scene S) (p : Ptr) (φ : Phase) : Track S := ⟨w.conns p, w.past p, w.log p, φ⟩

namespace PeerConnection

def gear (c : PeerConnection S) : Bool × ConnState × Bool × Bool × Bool × Bool × Bool × Bool × Bytes × Bool :=
  (c.dead, c.state, c.secure, c.inbound, c.registered, c.wantWrite, c.interestIn, c.interestOut, c.outBuf,
    c.useIdentity)

def needWrite (c : PeerConnection S) : Bool := !c.outBuf.isEmpty || c.state == .connectingOut

end PeerConnection

inductive Stroke (A : Frame S → Prop) : Track S → Track S → Prop where
  | tend {s : Track S} (d : PeerConnection S) (h : d.gear = s.conn.gear) : Stroke A s (s.set d s.phase)
  | dial {s : Track S} (hφ : s.phase = .rest) (hs : s.conn.state = .connectingOut) :
      Stroke A s (s.set { s.conn with registered := true, wantWrite := true, interestOut := true } .rest)
  | accept {s : Track S} (hφ : s.phase = .born) :
      Stroke A s (s.set { s.conn with registered := true, interestIn := true } .hello)
  | unlisted {s : Track S} (k : ℕ) (hφ : s.phase = .born) (hk : P.env.oracle.epoll k = false) :
      Stroke A s { s with phase := .hello }
  | connect {s : Track S} (hφ : s.phase = .rest) (hd : s.conn.dead = false) (hs : s.conn.state = .connectingOut) :
      Stroke A s (s.set { s.conn with state := .handshaking } .connecting)
  | listen {s : Track S} (hφ : s.phase = .connecting) (hr : s.conn.registered = true) :
      Stroke A s (s.set { s.conn with wantWrite := false, interestIn := true, interestOut := false } .hello)
  | deaf {s : Track S} (hφ : s.phase = .connecting)
      (h : s.conn.registered = false ∨ ∃ k, P.env.oracle.epoll k = false) : Stroke A s { s with phase := .hello }
  | hello {s : Track S} (d : PeerConnection S) (hφ : s.phase = .hello)
      (h : d.gear = { s.conn with
        outBuf := s.conn.outBuf ++ encode (.hello s.conn.inbound (P.env.self.hello s.conn)) }.gear) :
      Stroke A s (s.set d .flush)
  | greet {s : Track S} (d : PeerConnection S) (u : Bool) (hφ : s.phase = .rest) (hd : s.conn.dead = false)
      (hs : s.conn.state = .handshaking) (hsec : s.conn.secure = true)
      (h : d.gear = { s.conn with state := .awaitingConfirm, useIdentity := u }.gear) : Stroke A s (s.set d .confirm)
  | confirm {s : Track S} (d : PeerConnection S) (hφ : s.phase = .confirm)
      (h : d.gear = { s.conn with outBuf := s.conn.outBuf ++ encode s.conn.authConfirm }.gear) :
      Stroke A s (s.set d .flush)
  | put {s : Track S} (d : PeerConnection S) (c : PeerConnection S) (f : Frame S) (hφ : s.phase.ready = true)
      (hf : A f) (hd : s.conn.dead = false) (hc : c.secure = s.conn.secure)
      (hfit : s.conn.outBuf.length + (sealFrame c f).1.length ≤ P.env.cfg.maxOutboundQueueBytes ∨
        s.conn.outBuf = [] ∧ P.env.cfg.overflowPolicy = .dropOldest)
      (h : d.gear = { s.conn with outBuf := s.conn.outBuf ++ (sealFrame c f).1 }.gear) : Stroke A s (s.set d .flush)
  | clear {s : Track S} (hφ : s.phase.ready = true) (hp : P.env.cfg.overflowPolicy = .dropOldest) :
      Stroke A s (s.set { s.conn with outBuf := [] } s.phase)
  | flushed {s : Track S} (d : PeerConnection S) (a b : Bytes) (hφ : s.phase = .flush) (hb : s.conn.outBuf = a ++ b)
      (h : d.gear = { s.conn with outBuf := b }.gear) : Stroke A s (s.set d .flush)
  | rearm {s : Track S} (hφ : s.phase = .flush) (hd : s.conn.dead = false) (hr : s.conn.registered = true) :
      Stroke A s (s.set { s.conn with
        wantWrite := s.conn.needWrite, interestIn := true, interestOut := s.conn.needWrite } .rest)
  | still {s : Track S} (hφ : s.phase = .flush) (h : s.conn.dead = true ∨ s.conn.registered = false ∨
      s.conn.needWrite = s.conn.wantWrite ∨ ∃ k, P.env.oracle.epoll k = false) : Stroke A s { s with phase := .rest }
  | relax {s : Track S} (hφ : s.phase = .rest) : Stroke A s { s with phase := .flush }
  | die {s : Track S} (hφ : s.phase.ready = true) (hd : s.conn.dead = false) :
      Stroke A s { s.set s.conn.killed .rest with log := s.log ++ [.closed] }
  | establish {s : Track S} (x : Hello S) (hφ : s.phase = .rest) (hd : s.conn.dead = false)
      (hs : s.conn.state = .handshaking ∧ s.conn.secure = false ∨ s.conn.state = .awaitingConfirm) :
      Stroke A s { s.set { s.conn with state := .established } .rest with log := s.log ++ [.handshake x] }
  | message {s : Track S} (x : Callback S) (hx : x ≠ .closed ∧ ∀ h, x ≠ .handshake h) (hφ : s.phase = .rest)
      (hd : s.conn.dead = false) (hs : s.conn.state = .established) : Stroke A s { s with log := s.log ++ [x] }

abbrev Strokes (A : Frame S → Prop) : Track S → Track S → Prop := Relation.ReflTransGen (Stroke P A)

end Multimaster
