import Multimaster.Connection.Admitting
import Multimaster.Connection.Endpoint
import Multimaster.Connection.Transparent
import Multimaster.Wire.Stability
import Multimaster.Wire.Trimming

/-! `discovery.cpp`: the announcements of a node, and which of them a node accepts. -/

namespace Multimaster

variable {S : Suite}

def pskLabel : Bytes :=
  ascii ['m', 'u', 'l', 't', 'i', 'm', 'a', 's', 't', 'e', 'r', '-', 'p', 's', 'k', '-', 'v', '1']

def discoveryLabel : Bytes := ascii ['d', 'i', 's', 'c', 'o', 'v', 'e', 'r', 'y']

def deriveGroupKey (passphrase : Bytes) : S.Block 32 := S.generichash 32 [.text pskLabel] [.text passphrase]

def deriveDiscoveryKey (groupKey : S.Block 32) : S.Block 32 :=
  S.generichash 32 [.block groupKey] [.text discoveryLabel]

def discoveryTag (msg : Bytes) (discoveryKey : S.Block 32) : S.Block 16 :=
  S.generichash 16 [.block discoveryKey] [.text msg]

def discoveryVerify (msg tag : Bytes) (discoveryKey : S.Block 32) : Bool :=
  if tag.length ≠ 16 then false else putBlock (discoveryTag msg discoveryKey) = tag

def kAnnounceFlagSecure : UInt8 := 1

structure Discovery (S : Suite) where
  self : LocalIdentity S
  discoveryKey : S.Block 32 := S.zero 32

/-- The part of `mesh_impl::start` on the PSK; `secure` is false until then. -/
def Discovery.start (psk : Bytes) (own : LocalIdentity S) : Discovery S :=
  if psk = [] then { self := { own with secure := false } }
  else
    let groupKey := deriveGroupKey psk
    { self := { own with secure := true, groupKey }, discoveryKey := deriveDiscoveryKey groupKey }

namespace Discovery

variable (d : Discovery S)

def announce : Announce where
  protocolVersion := d.self.protocolVersion
  flags := if d.self.secure then kAnnounceFlagSecure else 0
  tcpListenPort := d.self.listenPort
  nodeId := d.self.nodeId
  groupName := d.self.groupName

def sendAnnounce : Bytes :=
  let dat := encodeAnnounce d.announce
  if d.self.secure then dat ++ putBlock (discoveryTag dat d.discoveryKey) else dat

def authenticated (datagram : Bytes) : Option Bytes :=
  if d.self.secure then
    if datagram.length ≤ 16 then none
    else
      let body := datagram.take (datagram.length - 16)
      if discoveryVerify body (datagram.drop (datagram.length - 16)) d.discoveryKey then some body else none
  else some datagram

def screen (a : Announce) : Option Announce :=
  if (a.flags &&& kAnnounceFlagSecure != 0) ≠ d.self.secure then none
  else if a.protocolVersion ≠ d.self.protocolVersion then none
  else if a.groupName ≠ d.self.groupName then none
  else if a.nodeId = d.self.nodeId then none
  else some a

/-- One turn of the loop of `on_io_events`; the buffer has 2048 bytes. -/
def accept (datagram : Bytes) : Option Announce :=
  match d.authenticated (datagram.take 2048) with
  | none => none
  | some body =>
    match decodeAnnounce body with
    | none => none
    | some a => d.screen a

/-- The calls of `on_discovered` for the datagrams in the socket. -/
def onIoEvents (readable : Bool) (queue : List (Bytes × Addr)) : List (Announce × Addr) :=
  if !readable then [] else queue.filterMap fun x => (d.accept x.1).map (·, x.2)

end Discovery

def PeerConnection.PastHelloCheck (c : PeerConnection S) : Prop :=
  c.failure ≠ some (.protocol, 0, "protocol/group mismatch") ∧
    c.failure ≠ some (.protocol, 0, "security mode mismatch")

lemma readAnnounce_extends : Reader.Extends readAnnounce := by
  refine (Reader.Extends.unsigned 4).bind fun magic => ?_
  refine (Reader.Extends.check _).bind fun _ => ?_
  exact Reader.Extends.u8.bind fun _ => Reader.Extends.u8.bind fun _ => (Reader.Extends.unsigned 2).bind fun _ =>
    (Reader.Extends.octets 16).bind fun _ => Reader.Extends.str.bind fun _ => .pure _

namespace Discovery

variable (d e : Discovery S)

lemma encodeAnnounce_length_le (a : Announce) : (encodeAnnounce a).length ≤ 280 := by
  have hg := putStr_length_le a.groupName
  have hid : a.nodeId.val.length = 16 := a.nodeId.property
  simp only [encodeAnnounce, List.length_append, networkOrder_length, List.length_cons, List.length_nil, hid]
  omega

lemma sendAnnounce_length_le : d.sendAnnounce.length ≤ 2048 := by
  unfold sendAnnounce
  extract_lets dat
  have h : dat.length ≤ 280 := encodeAnnounce_length_le d.announce
  split_ifs
  · rw [List.length_append, putBlock_length]
    omega
  · omega

lemma screen_announce : e.screen d.announce.trimmed =
    if d.self.secure = e.self.secure ∧ d.self.protocolVersion = e.self.protocolVersion ∧
      d.self.groupName.take 255 = e.self.groupName ∧ d.self.nodeId ≠ e.self.nodeId then
      some d.announce.trimmed else none := by
  have hflag : (d.announce.trimmed.flags &&& kAnnounceFlagSecure != 0) = d.self.secure := by
    change ((if d.self.secure then kAnnounceFlagSecure else 0) &&& kAnnounceFlagSecure != 0) = d.self.secure
    cases d.self.secure <;> rfl
  have hversion : d.announce.trimmed.protocolVersion = d.self.protocolVersion := rfl
  have hgroup : d.announce.trimmed.groupName = d.self.groupName.take 255 := rfl
  have hid : d.announce.trimmed.nodeId = d.self.nodeId := rfl
  unfold screen
  rw [hflag, hversion, hgroup, hid]
  split_ifs <;> simp_all

/-- The MAC of `d` on its announce is one for `e` as well. -/
def Vouched : Prop :=
  putBlock (discoveryTag (encodeAnnounce d.announce) e.discoveryKey) =
    putBlock (discoveryTag (encodeAnnounce d.announce) d.discoveryKey)

lemma decodeAnnounce_cut {a b : Announce} {body : Bytes} (hb : body <+: encodeAnnounce a)
    (h : decodeAnnounce body = some b) : b = a.trimmed := by
  obtain ⟨rest, hrest⟩ := hb
  obtain ⟨⟨x, t⟩, hx, rfl⟩ := Option.map_eq_some_iff.mp h
  have hall := readAnnounce_extends body x t hx rest
  have hdecode := decodeAnnounce_trimmed a []
  rw [List.append_nil, ← hrest, decodeAnnounce, hall] at hdecode
  exact Option.some.inj hdecode

lemma screen_isSome : (e.screen d.announce.trimmed).isSome ↔ d.self.secure = e.self.secure ∧
    d.self.protocolVersion = e.self.protocolVersion ∧ d.self.groupName.take 255 = e.self.groupName ∧
    d.self.nodeId ≠ e.self.nodeId := by
  rw [screen_announce]
  split_ifs with h <;> simp [h]

variable {d e}

lemma accept_unsecured (he : e.self.secure = false) :
    e.accept d.sendAnnounce = e.screen d.announce.trimmed := by
  have hdecode : decodeAnnounce d.sendAnnounce = some d.announce.trimmed := by
    unfold sendAnnounce
    extract_lets dat
    split_ifs
    · exact decodeAnnounce_trimmed d.announce _
    · simpa using decodeAnnounce_trimmed d.announce []
  rw [accept, List.take_of_length_le d.sendAnnounce_length_le, authenticated, he, if_neg Bool.false_ne_true]
  simp only [hdecode]

lemma accept_bare (hd : d.self.secure = false) (he : e.self.secure = true) : e.accept d.sendAnnounce = none := by
  have hsend : d.sendAnnounce = encodeAnnounce d.announce := if_neg (by rw [hd]; exact Bool.false_ne_true)
  rw [accept, List.take_of_length_le d.sendAnnounce_length_le, authenticated, if_pos he, hsend]
  extract_lets body
  split
  · rfl
  · rename_i l hl
    have hbody : l = body := by
      split_ifs at hl
      exact (Option.some.inj hl).symm
    cases hdec : decodeAnnounce l with
    | none => rfl
    | some a =>
      have hb : l <+: encodeAnnounce d.announce := hbody ▸ List.take_prefix _ _
      change e.screen a = none
      rw [decodeAnnounce_cut hb hdec, screen_announce, hd, he, if_neg fun h => Bool.false_ne_true h.1]

lemma authenticated_sealed (hd : d.self.secure = true) (he : e.self.secure = true) :
    e.authenticated d.sendAnnounce =
      if discoveryVerify (encodeAnnounce d.announce)
          (putBlock (discoveryTag (encodeAnnounce d.announce) d.discoveryKey)) e.discoveryKey then
        some (encodeAnnounce d.announce) else none := by
  have hsend : d.sendAnnounce = encodeAnnounce d.announce ++
      putBlock (discoveryTag (encodeAnnounce d.announce) d.discoveryKey) := if_pos hd
  have htag := putBlock_length (discoveryTag (encodeAnnounce d.announce) d.discoveryKey)
  have hpos : 0 < (encodeAnnounce d.announce).length := by simp [encodeAnnounce]
  have hlen : d.sendAnnounce.length = (encodeAnnounce d.announce).length + 16 := by
    rw [hsend, List.length_append, htag]
  rw [authenticated, if_pos he, hlen, if_neg (by omega), Nat.add_sub_cancel, hsend, List.take_left, List.drop_left]

lemma accept_sealed (hd : d.self.secure = true) (he : e.self.secure = true) :
    (e.accept d.sendAnnounce).isSome ↔ Vouched d e ∧ (e.screen d.announce.trimmed).isSome := by
  have htag := putBlock_length (discoveryTag (encodeAnnounce d.announce) d.discoveryKey)
  have hverify : discoveryVerify (encodeAnnounce d.announce)
      (putBlock (discoveryTag (encodeAnnounce d.announce) d.discoveryKey)) e.discoveryKey = true ↔ Vouched d e := by
    rw [discoveryVerify, if_neg (not_not.mpr htag), decide_eq_true_iff]
    rfl
  have hdecode : decodeAnnounce (encodeAnnounce d.announce) = some d.announce.trimmed := by
    simpa using decodeAnnounce_trimmed d.announce []
  rw [accept, List.take_of_length_le d.sendAnnounce_length_le, authenticated_sealed hd he]
  by_cases hv : Vouched d e
  · simp only [hverify.mpr hv, if_true, hdecode, hv, true_and]
  · simp [hv, mt hverify.mp hv]

lemma accept_sendAnnounce : (e.accept d.sendAnnounce).isSome ↔
    d.self.secure = e.self.secure ∧ (e.self.secure = true → Vouched d e) ∧
      d.self.protocolVersion = e.self.protocolVersion ∧ d.self.groupName.take 255 = e.self.groupName ∧
      d.self.nodeId ≠ e.self.nodeId := by
  cases he : e.self.secure with
  | false =>
    rw [accept_unsecured he, screen_isSome, he]
    simp only [Bool.false_eq_true, false_imp_iff, true_and]
  | true =>
    cases hd : d.self.secure with
    | false =>
      rw [accept_bare hd he]
      exact iff_of_false Bool.false_ne_true fun h => Bool.false_ne_true h.1
    | true =>
      rw [accept_sealed hd he, screen_isSome, hd, he]
      simp only [true_imp_iff, true_and]

end Discovery

end Multimaster
