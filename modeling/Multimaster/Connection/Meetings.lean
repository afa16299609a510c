import Multimaster.Connection.Conversing
import Multimaster.Connection.Transparent
import Multimaster.Wire.Trimming

/-! The two ends of one connection, each of which admits the other. -/

namespace Multimaster

variable {S : Suite}

/-- Connections of honest nodes, each with its own owner and its own environment. What one of them receives is an
answer of its environment, so nothing links them but what is assumed of a run. -/
structure Ends (ι : Type) (S : Suite) where
  owner : ι → Owner S
  inbound : ι → Bool

namespace Ends

variable {ι : Type} (P : Ends ι S)

def start (i : ι) : Endpoint S := Endpoint.start (P.owner i) (P.inbound i)

variable [DecidableEq ι]

def step (s : ι → Endpoint S) (e : ι × Stimulus S) : ι → Endpoint S :=
  Function.update s e.1 (react (P.owner e.1) (s e.1) e.2)

def run (es : List (ι × Stimulus S)) : ι → Endpoint S := es.foldl P.step P.start

variable {P} {s : ι → Endpoint S} {i j : ι} {e : Stimulus S}

lemma step_self : P.step s (i, e) i = react (P.owner i) (s i) e := Function.update_self ..

lemma step_other (h : j ≠ i) : P.step s (i, e) j = s j := Function.update_of_ne h ..

end Ends

structure Admits (O P : Owner S) : Prop where
  required : (O.env.self.hasIdentity && O.env.cfg.requireIdentity && !P.env.self.hasIdentity) = false
  proves : O.env.self.hasIdentity = true → P.env.self.hasIdentity = true →
    P.env.self.nodeId = idFromIdentity P.env.self.idKeys.pk ∧
      (∃ seed, P.env.self.idKeys = identityFromSeed seed) ∧
      (O.env.self.trustedKeys = [] ∨ P.env.self.idKeys.pk ∈ O.env.self.trustedKeys)

/-- The node `O` is configured for a connection with `P`, under the limit `M`. -/
structure Compatible (M : ℕ) (O P : Owner S) : Prop where
  secure : O.env.self.secure = true
  key : O.env.self.groupKey = P.env.self.groupKey
  version : O.env.self.protocolVersion = P.env.self.protocolVersion
  group : O.env.self.groupName = P.env.self.groupName
  group_length : O.env.self.groupName.length ≤ 255
  name_length : O.env.self.nodeName.length ≤ 255
  limit : O.env.cfg.maxMessageBytes = M
  admits : Admits O P

section Meetings

variable {M : ℕ} {O P : Owner S}

lemma hello_clear (h : Compatible M O P) (hM : 1024 ≤ M) (x : Bool) (c : PeerConnection S) :
    (Frame.hello x (O.hello c)).Clear M := by
  refine ⟨⟨h.group_length, ?_⟩, ?_, ?_⟩
  · change (if O.env.self.hasIdentity then O.env.self.nodeName else []).length ≤ 255
    split_ifs
    · exact h.name_length
    · exact Nat.zero_le _
  · exact (Frame.size_hello_le _ _).trans (by omega)
  · cases hid : O.env.self.hasIdentity <;> simp [Frame.received, Hello.received, Owner.hello, LocalIdentity.hello, hid]

lemma confirm_clear (hM : 1024 ≤ M) (tag : S.Block 32) (sig : Option (S.Block 64)) :
    (Frame.authConfirm tag sig).Clear M := by
  exact ⟨trivial, (Frame.size_authConfirm_le _ _).trans (by omega), rfl⟩

def Owner.script (O P : Owner S) (x : Bool) (c d : PeerConnection S) (r : HandshakeResult S) : Script S where
  hello := .hello x (O.hello c)
  confirm := .authConfirm r.myConfirmTag (if O.env.self.hasIdentity && P.env.self.hasIdentity then
    some (S.sign (idTranscript c.ephKeys.pk d.ephKeys.pk O.env.self.nodeName) O.env.self.idKeys.sk) else none)
  key := r.session.txKey

lemma Admits.verifies (hS : S.Lawful) (h : Admits O P) (ho : O.env.self.hasIdentity = true)
    (hp : P.env.self.hasIdentity = true) {c d k : PeerConnection S} (hk : k.peerHello = P.hello d)
    (hid : k.peerId = (P.hello d).nodeId) (hkeys : k.ephKeys = c.ephKeys) :
    identityFailure O.env.self k
      (some (S.sign (idTranscript d.ephKeys.pk c.ephKeys.pk P.env.self.nodeName) P.env.self.idKeys.sk)) =
      none := by
  obtain ⟨hnode, ⟨seed, hseed⟩, htrust⟩ := h.proves ho hp
  have hpk : k.peerHello.idPubKey = P.env.self.idKeys.pk := by
    rw [hk]
    exact if_pos hp
  have hname : k.peerHello.nodeName = P.env.self.nodeName := by
    rw [hk]
    exact if_pos hp
  have heph : k.peerHello.ephPubKey = d.ephKeys.pk := by
    rw [hk]
    rfl
  have hver : S.verify (idTranscript d.ephKeys.pk c.ephKeys.pk P.env.self.nodeName)
      (S.sign (idTranscript d.ephKeys.pk c.ephKeys.pk P.env.self.nodeName) P.env.self.idKeys.sk)
      P.env.self.idKeys.pk = true := by
    rw [hseed]
    exact hS.verify_sign _ seed
  have hids : ¬idFromIdentity P.env.self.idKeys.pk ≠ k.peerId := not_not.mpr (hnode.symm.trans hid.symm)
  have hlisted : ¬(O.env.self.trustedKeys ≠ [] ∧ P.env.self.idKeys.pk ∉ O.env.self.trustedKeys) := by
    rintro ⟨hne, hnot⟩
    exact htrust.elim hne hnot
  simp only [identityFailure, hpk, hname, heph, hkeys]
  rw [if_neg hids, hver, if_neg (by simp), if_neg hlisted]

def Owner.meeting (hS : S.Lawful) (hM : 1024 ≤ M) (hOP : Compatible M O P) (hPO : Compatible M P O) (x y : Bool)
    (c d : PeerConnection S) (r q : HandshakeResult S)
    (hr : doHandshake c.ephKeys d.ephKeys.pk O.env.self.groupKey O.env.self.groupName = some r)
    (htag : r.expectedPeerTag = q.myConfirmTag) (hrx : r.session.rxKey = q.session.txKey)
    (hctr : r.session.txCtr = 0 ∧ r.session.rxCtr = 0) : Meeting O where
  mine := O.script P x c d r
  theirs := P.script O y d c q
  ack := y
  peer := P.hello d
  keys := c.ephKeys
  result := r
  sig := if P.env.self.hasIdentity && O.env.self.hasIdentity then
    some (S.sign (idTranscript d.ephKeys.pk c.ephKeys.pk P.env.self.nodeName) P.env.self.idKeys.sk) else none
  hello_eq := rfl
  group := ⟨hPO.version, hPO.group⟩
  secure := rfl
  identity := hOP.admits.required
  agreed := hr
  session := by
    rw [show r.session = ⟨r.session.txKey, r.session.rxKey, r.session.txCtr, r.session.rxCtr⟩ from rfl, hrx,
      hctr.1, hctr.2]
    rfl
  mine_confirm := rfl
  confirm_eq := by
    rw [htag]
    rfl
  proved huse k hk hid hkeys := by
    have hboth : O.env.self.hasIdentity = true ∧ P.env.self.hasIdentity = true := Bool.and_eq_true_iff.mp huse
    rw [hboth.1, hboth.2, Bool.and_self, if_pos rfl]
    exact hOP.admits.verifies hS hboth.1 hboth.2 hk hid hkeys
  hello_clear := hOP.limit ▸ hello_clear hPO hM y d
  confirm_clear := hOP.limit ▸ confirm_clear hM _ _

end Meetings

end Multimaster
