import Multimaster.Basis.Dict
import Multimaster.Manager.Segregation
import Multimaster.Mesh.Text

/-! `mesh_impl::start`: the keys, the identity and the allowlist of a node, and what further calls do to them. -/

namespace Multimaster

structure TrustedNode where
  publicKeyHex : Bytes
  label : Bytes
  deriving DecidableEq

/-- The fields of `mesh_config` that the constructor and `start` read. -/
structure NodeConfig where
  nodeId : PeerId
  groupName : Bytes
  protocolVersion : UInt8 := 1
  listenPort : UInt16 := 0
  psk : Bytes := []
  identityFile : Bytes := []
  identitySeedHex : Bytes := []
  nodeName : Bytes := []
  trustedKeys : List TrustedNode := []

def NodeConfig.identityConfigured (cfg : NodeConfig) : Bool := cfg.identityFile ≠ [] || cfg.identitySeedHex ≠ []

/-- What one call of `start` finds outside: whether `crypto::init` succeeds, the content of the identity file if there
is one, the randomness of a new key pair, whether the file can be written, and the port that was bound unless `bind`
throws. -/
structure StartWorld (S : Suite) where
  init : Bool := true
  file : Option Bytes := none
  fresh : S.Block 32
  writable : Bool := true
  bound : Option UInt16

/-- The part of `mesh_impl` that `start` sets up. `persisted` and `errors` are history: what was last written to the
identity file, and the calls of `on_error`. -/
structure Startup (S : Suite) where
  cfg : NodeConfig
  self : LocalIdentity S
  discoveryKey : S.Block 32 := S.zero 32
  localLabels : Dict PeerId Bytes := ∅
  started : Bool := false
  running : Bool := false
  persisted : Option Bytes := none
  errors : List Error := []

variable {S : Suite}

def genIdentity (fresh : S.Block 32) : IdentityKeypair S := identityFromSeed fresh

def seedOf (kp : IdentityKeypair S) : S.Block 32 := S.first32 kp.sk

def textOf (l : Bytes) : String := String.ofList (l.map fun b => Char.ofNat b.toNat)

/-- `decode_hex` into an array of 32 bytes. -/
def decodeBlock (sv : Bytes) : Option (S.Block 32) :=
  (decodeHex sv 32).bind fun l => if h : l.length = 32 then some (S.ofBytes ⟨l, h⟩) else none

namespace Startup

def new (cfg : NodeConfig) : Startup S where
  cfg
  self :=
    { nodeId := cfg.nodeId, groupName := cfg.groupName, protocolVersion := cfg.protocolVersion
      listenPort := cfg.listenPort, secure := false, groupKey := S.zero 32, hasIdentity := false
      idKeys := ⟨S.zero 32, S.zero 64⟩, nodeName := [], trustedKeys := [] }

def onError (category : ErrorCategory) (what : String) (m : Startup S) : Startup S :=
  { m with errors := m.errors ++ [⟨category, 0, what, none⟩] }

def loadOrCreateSeed (w : StartWorld S) (m : Startup S) : Startup S × Option (S.Block 32) :=
  if m.cfg.identitySeedHex ≠ [] then
    match decodeBlock m.cfg.identitySeedHex with
    | none => (m.onError .identity "invalid identitySeedHex", none)
    | some seed => (m, some seed)
  else
    match w.file with
    | some content =>
      match decodeBlock content with
      | none => (m.onError .identity ("malformed identity file: " ++ textOf m.cfg.identityFile), none)
      | some seed => (m, some seed)
    | none =>
      let seed := seedOf (genIdentity w.fresh)
      if !w.writable then
        (m.onError .identity ("cannot write identity file: " ++ textOf m.cfg.identityFile), none)
      else ({ m with persisted := some (toHex (S.bytes seed).val) }, some seed)

def deriveKeys (m : Startup S) : Startup S :=
  let groupKey := deriveGroupKey m.cfg.psk
  { m with self := { m.self with secure := true, groupKey }, discoveryKey := deriveDiscoveryKey groupKey }

def takeIdentity (seed : S.Block 32) (m : Startup S) : Startup S :=
  let idKeys := identityFromSeed seed
  let nodeId := idFromIdentity idKeys.pk
  { m with
    cfg := { m.cfg with nodeId }
    self := { m.self with idKeys, hasIdentity := true, nodeName := m.cfg.nodeName, nodeId } }

def parseTrusted : List TrustedNode → Startup S → Startup S × Bool
  | [], m => (m, true)
  | t :: ts, m =>
    match decodeBlock t.publicKeyHex with
    | none => (m.onError .identity ("invalid trustedKeys public key: " ++ textOf t.publicKeyHex), false)
    | some pk =>
      parseTrusted ts { m with
        self := { m.self with trustedKeys := m.self.trustedKeys ++ [pk] }
        localLabels := if t.label ≠ [] then m.localLabels.insert (idFromIdentity pk) t.label else m.localLabels }

/-- From the exchange of `started_` on. -/
def launch (w : StartWorld S) (m : Startup S) : Startup S :=
  if m.started then m
  else
    match w.bound with
    | none => { m with started := true }
    | some port => { m with started := true, running := true, self := { m.self with listenPort := port } }

/-- `start` up to the exchange of `started_`, and whether it comes to that. -/
def prepare (w : StartWorld S) (m : Startup S) : Startup S × Bool :=
  if m.cfg.psk ≠ [] ∧ w.init = false then
    (m.onError .crypto "PSK configured but library built without libsodium support", false)
  else
    let m := if m.cfg.psk ≠ [] then m.deriveKeys else m
    if m.cfg.identityConfigured then
      if m.cfg.psk = [] then (m.onError .identity "node identity requires a PSK (a secured mesh)", false)
      else
        match m.loadOrCreateSeed w with
        | (m, none) => (m, false)
        | (m, some seed) => parseTrusted m.cfg.trustedKeys (m.takeIdentity seed)
    else (m, true)

def start (w : StartWorld S) (m : Startup S) : Startup S :=
  let r := m.prepare w
  if r.2 then r.1.launch w else r.1

def starts (ws : List (StartWorld S)) (m : Startup S) : Startup S := ws.foldl (fun m w => m.start w) m

/-- The same identity and policy: the settings with the node id, `self_` with its keys, and the local labels. -/
structure Same (m n : Startup S) : Prop where
  cfg : n.cfg = m.cfg
  self : n.self = m.self
  discoveryKey : n.discoveryKey = m.discoveryKey
  localLabels : n.localLabels = m.localLabels

lemma Same.refl (m : Startup S) : m.Same m := ⟨rfl, rfl, rfl, rfl⟩

lemma Same.symm {m n : Startup S} (h : m.Same n) : n.Same m :=
  ⟨h.cfg.symm, h.self.symm, h.discoveryKey.symm, h.localLabels.symm⟩

lemma Same.trans {m n k : Startup S} (h : m.Same n) (h' : n.Same k) : m.Same k :=
  ⟨h'.cfg.trans h.cfg, h'.self.trans h.self, h'.discoveryKey.trans h.discoveryKey, h'.localLabels.trans h.localLabels⟩

lemma onError_same (category : ErrorCategory) (what : String) (m : Startup S) : m.Same (m.onError category what) :=
  ⟨rfl, rfl, rfl, rfl⟩

end Startup

def NodeConfig.seed (cfg : NodeConfig) (w : StartWorld S) : Option (S.Block 32) :=
  if cfg.identitySeedHex ≠ [] then decodeBlock cfg.identitySeedHex
  else
    match w.file with
    | some content => decodeBlock content
    | none => if w.writable then some (seedOf (genIdentity w.fresh)) else none

end Multimaster
