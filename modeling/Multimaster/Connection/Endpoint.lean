import Multimaster.Connection.Input

/-! One connection from the moment its socket is connected, under an owner that may send on it or
close it at any time, also from inside a callback. -/

namespace Multimaster

variable {S : Suite}

inductive Act (S : Suite) where
  | send (f : Frame S)
  | close

/-- The node of a connection, and what it does in the callback made at each point. -/
structure Owner (S : Suite) where
  env : Env S
  acts : ℕ → List (Act S)

/-- `told` are the Hellos passed to `on_peer_handshake`. -/
structure Endpoint (S : Suite) where
  conn : PeerConnection S
  pos : ℕ := 0
  told : List (Hello S) := []

variable (O : Owner S)

def ownerSink : Sink S (Endpoint S) where
  env := O.env
  conn w _ := w.conn
  setConn _ c w := { w with conn := c }
  pos := Endpoint.pos
  bump w := { w with pos := w.pos + 1 }
  onPeerClosed _ w := w
  reportError _ w := w

def act (w : Endpoint S) : Act S → Endpoint S
  | .send f => sendRaw (ownerSink O) 0 f w
  | .close => closeGracefully (ownerSink O) 0 w

def respond (w : Endpoint S) : Endpoint S :=
  (O.acts w.pos).foldl (act O) { w with pos := w.pos + 1 }

def ownerListener : Listener S (Endpoint S) where
  toSink := ownerSink O
  onPeerHandshake _ h w := respond O { w with told := w.told ++ [h] }
  onPeerData _ _ w := respond O w
  onPeerMembership _ _ w := respond O w
  onPeerIdentity _ _ w := respond O w

def freshConnection (inbound : Bool) : PeerConnection S where
  peerAddr := default
  inbound := inbound
  state := if inbound then .handshaking else .connectingOut
  localNonce := UInt64.ofNat (O.env.oracle.random 0)
  secure := O.env.self.secure
  createdAt := O.env.oracle.clock 0
  lastRecv := O.env.oracle.clock 0
  lastSend := O.env.oracle.clock 0

/-- The constructor of an accepted connection, or a dial up to the end of `on_connect_complete`. -/
def Endpoint.start (inbound : Bool) : Endpoint S :=
  let w : Endpoint S := { conn := freshConnection O inbound, pos := 1 }
  if inbound then startInbound (ownerSink O) 0 w
  else
    let r := startConnect (ownerSink O) 0 w
    if r.1 then onConnectComplete (ownerSink O) 0 r.2 else r.2

inductive Stimulus (S : Suite) where
  | io (hup out inn : Bool)
  | act (a : Act S)

def react (w : Endpoint S) : Stimulus S → Endpoint S
  | .io hup out inn => onIoEvents (ownerListener O) 0 hup out inn w
  | .act a => act O w a

def Endpoint.run (inbound : Bool) (es : List (Stimulus S)) : Endpoint S :=
  es.foldl (react O) (Endpoint.start O inbound)

end Multimaster
