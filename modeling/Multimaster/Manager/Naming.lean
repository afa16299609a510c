import Multimaster.Manager.Confirming

/-! The name of a node is signed whole and sent cut to 255 bytes. -/

namespace Multimaster

variable {S : Suite}

section Names

variable {O P : Owner S}

lemma confirmation_accepted (hS : S.Lawful) (hO : O.env.self.Certified) (hP : P.env.self.Certified)
    (hOP : O.env.self.Trusts P.env.self) (hb : P.env.self.NameBound) {x y : Bool} {es fs : List (Stimulus S)}
    (hw : Awaits O P (Endpoint.run O x es) (Endpoint.run P y fs).conn)
    (hv : Awaits P O (Endpoint.run P y fs) (Endpoint.run O x es).conn) (consumed : ℕ) (src : Source) :
    (dispatch (ownerListener O) 0 (Endpoint.run P y fs).conn.authConfirm consumed src
      (Endpoint.run O x es)).2.told ≠ [] ↔ P.env.self.nodeName.length ≤ 255 := by
  obtain ⟨r, hr, ht⟩ := hw.saved hS hO.secure
  obtain ⟨q, hq, -⟩ := hv.saved hS hP.secure
  obtain ⟨seed, hseed⟩ := hP.keys
  have hwkeys := (Endpoint.run_keys hO.secure x es).resolve_left (by rw [hw.state]; exact ConnState.noConfusion)
  have hvkeys := (Endpoint.run_keys hP.secure y fs).resolve_left (by rw [hv.state]; exact ConnState.noConfusion)
  have hsec := (Endpoint.run_going hO.secure x es).secure
  generalize Endpoint.run O x es = w at *
  generalize Endpoint.run P y fs = v at *
  obtain ⟨a, ha⟩ := hwkeys
  obtain ⟨b, hb'⟩ := hvkeys
  have hpeer : (P.hello v.conn).trimmed.received = { (P.hello v.conn) with
      groupName := P.env.self.groupName.take 255, nodeName := P.env.self.nodeName.take 255 } := by
    simp [Hello.received, Hello.trimmed, Owner.hello, LocalIdentity.hello, hP.identity]
  have hown : (O.hello w.conn).trimmed.received.ephPubKey = w.conn.ephKeys.pk := by
    simp [Hello.received, Hello.trimmed, Owner.hello, LocalIdentity.hello]
  rw [hpeer] at hr
  have huse : w.conn.useIdentity = true := by rw [hr.useIdentity, hO.identity]; exact hP.identity
  have huse' : v.conn.useIdentity = true := by
    rw [hq.useIdentity, hP.identity]
    exact hO.identity
  have htag : v.conn.myConfirmTag = w.conn.expectedPeerTag := by
    have hr' := hr.result
    have hq' := hq.result
    rw [hown, ha, hb', ← hOP.key, ← hOP.group] at hq'
    rw [show (_ : Hello S).ephPubKey = v.conn.ephKeys.pk from rfl, ha, hb'] at hr'
    rw [hq.mine, hr.expected]
    exact (doHandshake_tags hS hr' hq').symm
  have hpk : w.conn.peerHello.idPubKey = P.env.self.idKeys.pk := by
    rw [hr.hello]
    exact if_pos hP.identity
  have hsig : v.conn.myIdSig =
      S.sign (idTranscript v.conn.ephKeys.pk w.conn.ephKeys.pk P.env.self.nodeName) P.env.self.idKeys.sk := by
    rw [hq.sig huse', hown]
  have heph : w.conn.peerHello.ephPubKey = v.conn.ephKeys.pk := by
    rw [hr.hello]
    rfl
  have hname : w.conn.peerHello.nodeName = P.env.self.nodeName.take 255 := by rw [hr.hello]
  have hid : idFromIdentity P.env.self.idKeys.pk = w.conn.peerId := by rw [hr.peerId, ← hP.id]; rfl
  rw [PeerConnection.authConfirm, if_pos huse', dispatch_authConfirm_told hsec hw.state ht,
    identityFailure_some, hsig, hpk, heph, hname]
  constructor
  · rintro ⟨-, hok⟩
    exact List.take_eq_self_iff _ |>.mp (hb.transcript _ _ (hok huse).2.1)
  · intro hlen
    refine ⟨htag, fun _ => ⟨hid, ?_, hOP.listed⟩⟩
    rw [List.take_of_length_le hlen, hseed]
    exact hS.verify_sign _ seed

lemma record_accredited (hS : S.Lawful) (hO : O.env.self.Certified) (hP : P.env.self.Certified)
    (hOP : O.env.self.Trusts P.env.self) (hb : P.env.self.NameBound) (n : Node S) :
    Accredited O.env (makeSelfIdRecord P.env n).1.trimmed ↔
      P.env.self.nodeName.length ≤ 255 := by
  obtain ⟨seed, hseed⟩ := hP.keys
  constructor
  · rintro ⟨-, -, -, hv⟩
    exact (List.take_eq_self_iff _).mp (hb.record _ hv)
  · intro hlen
    refine ⟨hO.identity, fun h => hOP.apart (hP.id.trans h), fun h => hOP.listed.resolve_left h, ?_⟩
    have hv := hS.verify_sign (idRecordMsg (n.selfIdVersion + 1) P.env.self.nodeName) seed
    have hk : identityFromSeed seed = ⟨(S.signSeedKeypair seed).1, (S.signSeedKeypair seed).2⟩ := rfl
    simp only [IdentityRecord.trimmed, makeSelfIdRecord, List.take_of_length_le hlen, hseed, hk]
    exact hv

theorem signed_names_verify (hS : S.Lawful) (hO : O.env.self.Certified) (hP : P.env.self.Certified)
    (hOP : O.env.self.Trusts P.env.self) (hb : P.env.self.NameBound) :
    (∀ (x y : Bool) (es fs : List (Stimulus S)) (consumed : ℕ) (src : Source),
      Awaits O P (Endpoint.run O x es) (Endpoint.run P y fs).conn →
      Awaits P O (Endpoint.run P y fs) (Endpoint.run O x es).conn →
      ((∃ g, (Endpoint.run P y fs).conn.authConfirm.carried O.env.cfg.maxMessageBytes = some g ∧
          (dispatch (ownerListener O) 0 g consumed src (Endpoint.run O x es)).2.told ≠ []) ↔
        P.env.self.nodeName.length ≤ 255 ∧
          (Endpoint.run P y fs).conn.authConfirm.size ≤ O.env.cfg.maxMessageBytes)) ∧
    ∀ (n m : Node S) (Ms : List ℕ) (k : ℕ) (p : Ptr), Ms ≠ [] →
      (∀ v, m.idVersions.get? P.env.self.nodeId = some v → v < (makeSelfIdRecord P.env n).1.version) →
      ((∃ rec, (Frame.identity (makeSelfIdRecord P.env n).1).relayed Ms = some (.identity rec) ∧
          (onPeerIdentity (managerSink O.env k) p rec m).idVersions.get? P.env.self.nodeId = some rec.version) ↔
        P.env.self.nodeName.length ≤ 255 ∧
          ∀ M ∈ Ms, (Frame.identity (makeSelfIdRecord P.env n).1).size ≤ M) := by
  constructor
  · intro x y es fs consumed src hw hv
    have hcarried : (Endpoint.run P y fs).conn.authConfirm.carried O.env.cfg.maxMessageBytes =
        if (Endpoint.run P y fs).conn.authConfirm.size ≤ O.env.cfg.maxMessageBytes then
          some (Endpoint.run P y fs).conn.authConfirm else none :=
      Frame.carried_eq hS.ofBytes_bytes _ (Nat.lt_of_le_of_lt (Frame.size_authConfirm_le _ _) (by norm_num))
    rw [← confirmation_accepted hS hO hP hOP hb hw hv consumed src, hcarried]
    constructor
    · rintro ⟨g, hg, hok⟩
      split_ifs at hg with hsize
      cases hg
      exact ⟨hok, hsize⟩
    · rintro ⟨hok, hsize⟩
      exact ⟨_, if_pos hsize, hok⟩
  · intro n m Ms k p hne hm
    rw [← record_accredited hS hO hP hOP hb n, Frame.relayed_identity hS.ofBytes_bytes _ hne]
    have horigin : idFromIdentity (makeSelfIdRecord P.env n).1.trimmed.idPubKey = P.env.self.nodeId := hP.id.symm
    rw [← horigin] at hm ⊢
    have hversion : (onPeerIdentity (managerSink O.env k) p (makeSelfIdRecord P.env n).1.trimmed m).idVersions.get? _ =
        some (makeSelfIdRecord P.env n).1.trimmed.version ↔ _ := onPeerIdentity_version hm k p
    rw [← hversion]
    constructor
    · rintro ⟨rec, hrec, hok⟩
      split_ifs at hrec with hsize
      cases hrec
      exact ⟨hok, hsize⟩
    · rintro ⟨hok, hsize⟩
      exact ⟨_, if_pos hsize, hok⟩

end Names

def LocalIdentity.labelled (id name : Bytes) : LocalIdentity Suite.measured where
  nodeId := idFromIdentity (S := Suite.measured) (Octets.fill id)
  groupName := []
  protocolVersion := 1
  listenPort := 0
  secure := true
  groupKey := Octets.zero 32
  hasIdentity := true
  idKeys := ⟨Octets.fill id, Octets.fill (Octets.fill (n := 32) id).val⟩
  nodeName := name
  trustedKeys := []

def Owner.labelled (id name : Bytes) (peer : Hello Suite.measured) : Owner Suite.measured where
  env := {
    cfg := {}
    self := .labelled id name
    oracle := { Oracle.calm Suite.measured with
      secret := fun _ => Octets.fill id
      recv := fun _ => [.data (encode (.hello false peer))] } }
  acts _ := []

def Hello.labelled (id name : Bytes) : Hello Suite.measured :=
  (Owner.labelled id name (Hello.blank _)).hello (Endpoint.start (.labelled id name (Hello.blank _)) true).conn

def nodeOne (name : Bytes) : Owner Suite.measured := .labelled [1] [] (.labelled [2] name)
def nodeTwo (name : Bytes) : Owner Suite.measured := .labelled [2] name (.labelled [1] [])

lemma labelled_certified (id name : Bytes) : (LocalIdentity.labelled id name).Certified :=
  ⟨rfl, rfl, ⟨Octets.fill id, rfl⟩, rfl⟩

lemma labelled_trusts (name : Bytes) : (LocalIdentity.labelled [1] []).Trusts (LocalIdentity.labelled [2] name) := by
  refine ⟨rfl, rfl, .inl rfl, ?_⟩
  change idFromIdentity (S := Suite.measured) (Octets.fill [2]) ≠
    idFromIdentity (S := Suite.measured) (Octets.fill [1])
  decide

lemma length_idTranscript (e f : Octets 32) (s : Bytes) :
    ((idTranscript (S := Suite.measured) e f s).flatMap Piece.content).length = 72 + s.length := by
  change (([.text idLabel, .block e, .block f, .text s] : List (Piece Octets)).flatMap Piece.content).length = _
  have he : e.val.length = 32 := e.property
  have hf : f.val.length = 32 := f.property
  have hl : idLabel.length = 8 := rfl
  simp only [List.flatMap_cons, List.flatMap_nil, Piece.content, List.length_append, List.length_nil, he, hf, hl]
  omega

lemma length_idRecordMsg (version : UInt64) (s : Bytes) :
    ((idRecordMsg (S := Suite.measured) version s).flatMap Piece.content).length = 19 + s.length := by
  change (([.text idRecordLabel, .text (networkOrder 8 version.toNat), .text s] : List (Piece Octets)).flatMap
    Piece.content).length = _
  have hl : idRecordLabel.length = 11 := rfl
  simp only [List.flatMap_cons, List.flatMap_nil, Piece.content, List.length_append, List.length_nil,
    networkOrder_length, hl]
  omega

lemma labelled_bound {name : Bytes} (hn : name.length < 2 ^ 32) : (LocalIdentity.labelled [2] name).NameBound := by
  have hcut := List.length_take_le 255 name
  have cut (h : name.length = (name.take 255).length) : name.take 255 = name :=
    (List.take_eq_self_iff _).mpr (h ▸ hcut)
  constructor
  · intro e f hv
    have h : 72 + name.length = 72 + (name.take 255).length :=
      measure_inj (length_idTranscript e f name) (length_idTranscript e f _) (by omega) (by omega) (measures_iff.mp hv)
    exact cut (Nat.add_left_cancel h)
  · intro version hv
    have h : 19 + name.length = 19 + (name.take 255).length :=
      measure_inj (length_idRecordMsg version name) (length_idRecordMsg version _) (by omega) (by omega)
        (measures_iff.mp hv)
    exact cut (Nat.add_left_cancel h)

theorem signed_names_verify_short :
    (∃ g, (Endpoint.run (nodeTwo [7]) true [.io false false true]).conn.authConfirm.carried 16777216 = some g ∧
      (dispatch (ownerListener (nodeOne [7])) 0 g 0 .inBuf
        (Endpoint.run (nodeOne [7]) true [.io false false true])).2.told ≠ []) ∧
    ∃ rec, (Frame.identity (makeSelfIdRecord (nodeTwo [7]).env (Node.initial (nodeTwo [7]).env)).1).relayed
        [400, 300] = some (.identity rec) ∧
      (onPeerIdentity (managerSink (nodeOne [7]).env 0) 0 rec (Node.initial (nodeOne [7]).env)).idVersions.get?
        (nodeTwo [7]).env.self.nodeId = some rec.version := by
  have h := signed_names_verify (O := nodeOne [7]) (P := nodeTwo [7]) Suite.measured_lawful (labelled_certified _ _)
    (labelled_certified _ _) (labelled_trusts _) (labelled_bound (by decide))
  have hw : Awaits (nodeOne [7]) (nodeTwo [7]) (Endpoint.run (nodeOne [7]) true [.io false false true])
      (Endpoint.run (nodeTwo [7]) true [.io false false true]).conn :=
    ⟨by decide +kernel, false, .labelled [2] [7], by decide +kernel, by decide +kernel⟩
  have hv : Awaits (nodeTwo [7]) (nodeOne [7]) (Endpoint.run (nodeTwo [7]) true [.io false false true])
      (Endpoint.run (nodeOne [7]) true [.io false false true]).conn :=
    ⟨by decide +kernel, false, .labelled [1] [], by decide +kernel, by decide +kernel⟩
  have hnew : ∀ v, (Node.initial (nodeOne [7]).env).idVersions.get? (nodeTwo [7]).env.self.nodeId = some v →
      v < (makeSelfIdRecord (nodeTwo [7]).env (Node.initial (nodeTwo [7]).env)).1.version := by
    intro v hget
    cases hget
  refine ⟨(h.1 true true _ _ 0 .inBuf hw hv).mpr ⟨by decide, by decide +kernel⟩, ?_⟩
  exact (h.2 _ _ [400, 300] 0 0 (by decide) hnew).mpr ⟨by decide, by decide +kernel⟩

def longName : Bytes := List.replicate 256 7

theorem long_name_refused :
    (nodeTwo longName).env.self.Certified ∧ (nodeOne longName).env.self.Trusts (nodeTwo longName).env.self ∧
    Awaits (nodeOne longName) (nodeTwo longName) (Endpoint.run (nodeOne longName) true [.io false false true])
      (Endpoint.run (nodeTwo longName) true [.io false false true]).conn ∧
    (dispatch (ownerListener (nodeOne longName)) 0
      (Endpoint.run (nodeTwo longName) true [.io false false true]).conn.authConfirm 0 .inBuf
      (Endpoint.run (nodeOne longName) true [.io false false true])).2.conn.failure =
        some (.identity, 0, "identity signature invalid") ∧
    ∃ rec, (Frame.identity (makeSelfIdRecord (nodeTwo longName).env (Node.initial (nodeTwo longName).env)).1).relayed
        [16777216] = some (.identity rec) ∧
      (onPeerIdentity (managerSink (nodeOne longName).env 0) 0 rec
        (Node.initial (nodeOne longName).env)).idVersions.get? (nodeTwo longName).env.self.nodeId = none := by
  refine ⟨labelled_certified _ _, labelled_trusts _, ?_, by decide +kernel, ?_⟩
  · exact ⟨by decide +kernel, false, (Hello.labelled [2] longName).trimmed, by decide +kernel, by decide +kernel⟩
  · refine ⟨(makeSelfIdRecord (nodeTwo longName).env (Node.initial (nodeTwo longName).env)).1.trimmed, ?_, ?_⟩
    · decide +kernel
    · decide +kernel

end Multimaster
