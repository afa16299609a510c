import Multimaster.Connection.State
import Multimaster.Crypto.Transparent

/-! Nodes over the transparent suite in an environment in which every call succeeds, for runs on
concrete inputs. -/

namespace Multimaster

def Oracle.calm (S : Suite) : Oracle S where
  clock _ := 0
  send _ := [.wrote 4096]
  recv _ := []
  connect _ := .inProgress
  soError _ := 0
  epoll _ := true
  resolve _ _ _ := some default
  random _ := 0
  secret _ := S.zero 32
  malloc _ := 1
  order _ := []

def LocalIdentity.plain (nodeId : PeerId) : LocalIdentity Suite.transparent where
  nodeId := nodeId
  groupName := []
  protocolVersion := 1
  listenPort := 0
  secure := false
  groupKey := Octets.zero 32
  hasIdentity := false
  idKeys := ⟨Octets.zero 32, Octets.zero 64⟩
  nodeName := []
  trustedKeys := []

def Env.plain (nodeId : PeerId) : Env Suite.transparent where
  cfg := {}
  self := .plain nodeId
  oracle := .calm _

def Env.persistent : Env Suite.transparent where
  cfg := { staticPeers := [⟨"peer", 7000⟩] }
  self := .plain (Octets.fill [1])
  oracle := { Oracle.calm Suite.transparent with clock := fun j => 1000 * j }

def Hello.plain (nodeId : PeerId) : Hello Suite.transparent :=
  { Hello.blank _ with nodeId, protocolVersion := 1 }

def Hello.identified (id : Bytes) : Hello Suite.transparent :=
  { Hello.plain (Octets.fill id) with
    secure := true, ephPubKey := Octets.fill [7], hasIdentity := true, idPubKey := Octets.fill id }

def identifiedTag : Octets 32 :=
  ((doHandshake (S := Suite.transparent) (genEphemeral (Octets.zero 32)) (Octets.fill [7])
    (Octets.zero 32) []).map (·.expectedPeerTag)).getD (Octets.zero 32)

end Multimaster
