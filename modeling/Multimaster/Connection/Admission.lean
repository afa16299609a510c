import Multimaster.Connection.PulseRuns
import Multimaster.Connection.Transparent

/-! What a secured connection has checked by the time it is Established. -/

namespace Multimaster

variable {S : Suite}

def Frame.hello? : Frame S → Option (Hello S)
  | .hello _ h => some h
  | _ => none

def Frame.confirm? : Frame S → Option (S.Block 32 × Option (S.Block 64))
  | .authConfirm tag sig => some (tag, sig)
  | _ => none

def firstHello (l : List (Source × Frame S)) : Option (Hello S) := l.findSome? fun x => x.2.hello?

def firstConfirm (l : List (Source × Frame S)) : Option (S.Block 32 × Option (S.Block 64)) :=
  l.findSome? fun x => x.2.confirm?

lemma firstHello_append (l : List (Source × Frame S)) (src : Source) (f : Frame S) :
    firstHello (l ++ [(src, f)]) = (firstHello l).or f.hello? := by
  simp [firstHello, List.findSome?_append]

lemma firstConfirm_append (l : List (Source × Frame S)) (src : Source) (f : Frame S) :
    firstConfirm (l ++ [(src, f)]) = (firstConfirm l).or f.confirm? := by
  simp [firstConfirm, List.findSome?_append]

structure Saved (O : Owner S) (c : PeerConnection S) (h : Hello S) (r : HandshakeResult S) : Prop where
  first : firstHello c.dispatched = some h
  hello : c.peerHello = h
  peerId : c.peerId = h.nodeId
  required : (O.env.self.hasIdentity && O.env.cfg.requireIdentity && !h.hasIdentity) = false
  useIdentity : c.useIdentity = (O.env.self.hasIdentity && h.hasIdentity)
  result : doHandshake c.ephKeys h.ephPubKey O.env.self.groupKey O.env.self.groupName = some r
  mine : c.myConfirmTag = r.myConfirmTag
  expected : c.expectedPeerTag = r.expectedPeerTag
  sig : c.useIdentity = true → c.myIdSig =
    S.sign (idTranscript c.ephKeys.pk h.ephPubKey O.env.self.nodeName) O.env.self.idKeys.sk

structure Passed (O : Owner S) (c : PeerConnection S) (told : List (Hello S)) (h : Hello S)
    (r : HandshakeResult S) (tag : S.Block 32) (sig : Option (S.Block 64)) : Prop where
  saved : Saved O c h r
  told : told = [h]
  first : firstConfirm c.dispatched = some (tag, sig)
  tag : tag = r.expectedPeerTag
  identity : c.useIdentity = true → identityFailure O.env.self c sig = none

namespace Saved

variable {O : Owner S} {c d : PeerConnection S} {h : Hello S} {r : HandshakeResult S}

lemma congr (s : Saved O c h r) (hd : d.standing = c.standing) : Saved O d h r := by
  have hc : Saved O c.standing h r := ⟨s.1, s.2, s.3, s.4, s.5, s.6, s.7, s.8, s.9⟩
  rw [← hd] at hc
  exact ⟨hc.1, hc.2, hc.3, hc.4, hc.5, hc.6, hc.7, hc.8, hc.9⟩

lemma heard (s : Saved O c h r) (src : Source) (f : Frame S) : Saved O (c.heardFrame src f) h r :=
  { s with first := by rw [PeerConnection.heardFrame, firstHello_append, s.first, Option.some_or] }

lemma killed (s : Saved O c h r) : Saved O c.killed h r := { s with }

end Saved

namespace Passed

variable {O : Owner S} {c d : PeerConnection S} {told : List (Hello S)} {h : Hello S}
  {r : HandshakeResult S} {tag : S.Block 32} {sig : Option (S.Block 64)}

lemma congr (p : Passed O c told h r tag sig) (hd : d.standing = c.standing) : Passed O d told h r tag sig := by
  have hc : Passed O c.standing told h r tag sig := ⟨p.1.congr rfl, p.2, p.3, p.4, p.5⟩
  rw [← hd] at hc
  exact ⟨p.1.congr hd, hc.2, hc.3, hc.4, hc.5⟩

lemma heard (p : Passed O c told h r tag sig) (src : Source) (f : Frame S) :
    Passed O (c.heardFrame src f) told h r tag sig :=
  { p with
    saved := p.saved.heard src f
    first := by rw [PeerConnection.heardFrame, firstConfirm_append, p.first, Option.some_or] }

lemma killed (p : Passed O c told h r tag sig) : Passed O c.killed told h r tag sig :=
  { p with saved := p.saved.killed }

end Passed

structure Progress (O : Owner S) (c : PeerConnection S) (told : List (Hello S)) : Prop where
  fresh : c.state = .handshaking → firstHello c.dispatched = none ∧ firstConfirm c.dispatched = none ∧ told = []
  awaiting : c.state = .awaitingConfirm →
    (∃ h r, Saved O c h r) ∧ firstConfirm c.dispatched = none ∧ told = []
  established : c.state = .established → told ≠ []
  passed : told ≠ [] → ∃ h r tag sig, Passed O c told h r tag sig

namespace Progress

variable {O : Owner S} {A : Frame S → Prop} {c d : PeerConnection S} {told : List (Hello S)}

lemma congr (p : Progress O c told) (hd : d.standing = c.standing) : Progress O d told := by
  have hst : d.state = c.state := standing_field hd PeerConnection.state fun _ => rfl
  have hdi : d.dispatched = c.dispatched := standing_field hd PeerConnection.dispatched fun _ => rfl
  refine ⟨fun h => ?_, fun h => ?_, fun h => ?_, fun h => ?_⟩
  · rw [hdi]
    exact p.fresh (hst ▸ h)
  · obtain ⟨⟨h, r, hs⟩, hc⟩ := p.awaiting (hst ▸ h)
    exact ⟨⟨h, r, hs.congr hd⟩, hdi ▸ hc⟩
  · exact p.established (hst ▸ h)
  · obtain ⟨h, r, tag, sig, hp⟩ := p.passed h
    exact ⟨h, r, tag, sig, hp.congr hd⟩

lemma killed (p : Progress O c told) : Progress O c.killed told := by
  refine ⟨nofun, nofun, nofun, fun h => ?_⟩
  obtain ⟨h, r, tag, sig, hp⟩ := p.passed h
  exact ⟨h, r, tag, sig, hp.killed⟩

lemma heard (p : Progress O c told) {f : Frame S} (hf : Passive c f) (src : Source) :
    Progress O (c.heardFrame src f) told := by
  have hconfirm : f.confirm? = none := by
    cases f <;> first | rfl | exact hf.elim
  refine ⟨fun h => ?_, fun h => ?_, p.established, fun h => ?_⟩
  · have hhello : f.hello? = none := by
      cases f with
      | hello ack x => exact absurd h hf
      | _ => rfl
    obtain ⟨h₁, h₂, h₃⟩ := p.fresh h
    simp [PeerConnection.heardFrame, firstHello_append, firstConfirm_append, h₁, h₂, h₃, hhello, hconfirm]
  · obtain ⟨⟨h, r, hs⟩, hc, ht⟩ := p.awaiting h
    refine ⟨⟨h, r, hs.heard src f⟩, ?_, ht⟩
    simp [PeerConnection.heardFrame, firstConfirm_append, hc, hconfirm]
  · obtain ⟨h, r, tag, sig, hp⟩ := p.passed h
    exact ⟨h, r, tag, sig, hp.heard src f⟩

lemma refused (p : Progress O c told) (src : Source) (f : Frame S)
    (hd : d = c ∨ c.state = .handshaking ∧ ∃ h, d = c.named h) :
    Progress O (d.heardFrame src f).killed told := by
  refine ⟨nofun, nofun, nofun, fun ht => ?_⟩
  rcases hd with rfl | ⟨hst, -⟩
  · obtain ⟨h, r, tag, sig, hp⟩ := p.passed ht
    exact ⟨h, r, tag, sig, (hp.heard src f).killed⟩
  · exact absurd (p.fresh hst).2.2 ht

lemma accepted (p : Progress O c told) (src : Source) (ack : Bool) {h : Hello S} {r : HandshakeResult S}
    (hst : c.state = .handshaking)
    (hid : (O.env.self.hasIdentity && O.env.cfg.requireIdentity && !h.hasIdentity) = false)
    (hr : doHandshake c.ephKeys h.ephPubKey O.env.self.groupKey O.env.self.groupName = some r) :
    Progress O ((c.heardFrame src (.hello ack h)).greeted O.env.self h r) told := by
  obtain ⟨h₁, h₂, h₃⟩ := p.fresh hst
  refine ⟨nofun, fun _ => ⟨⟨h, r, ?_⟩, ?_, h₃⟩, nofun, fun ht => absurd h₃ ht⟩
  · refine ⟨?_, rfl, rfl, hid, rfl, hr, rfl, rfl, fun hu => if_pos hu⟩
    simp [PeerConnection.greeted, PeerConnection.heardFrame, firstHello_append, h₁, Frame.hello?]
  · simp [PeerConnection.greeted, PeerConnection.heardFrame, firstConfirm_append, h₂, Frame.confirm?]

lemma confirmed (p : Progress O c told) (src : Source) {tag : S.Block 32} {sig : Option (S.Block 64)}
    (hst : c.state = .awaitingConfirm) (htag : tag = c.expectedPeerTag)
    (hv : (if c.useIdentity then identityFailure O.env.self c sig else none) = none) :
    Progress O { c.heardFrame src (.authConfirm tag sig) with state := .established }
      (told ++ [c.peerHello]) := by
  obtain ⟨⟨h, r, hs⟩, hc, ht⟩ := p.awaiting hst
  refine ⟨nofun, nofun, fun _ => by simp, fun _ => ⟨h, r, tag, sig, ?_⟩⟩
  refine ⟨{ hs.heard src (.authConfirm tag sig) with }, by rw [ht, hs.hello]; rfl, ?_, htag.trans hs.expected,
    fun hu => ?_⟩
  · simp [PeerConnection.heardFrame, firstConfirm_append, hc, Frame.confirm?]
  · have hu : c.useIdentity = true := hu
    rw [if_pos hu] at hv
    exact hv

lemma pulse {w v : Endpoint S} (h : Pulse O A w v) (p : Progress O w.conn w.told) :
    Progress O v.conn v.told := by
  cases h with
  | idle hc hs ht | send _ _ hc hs ht | vouch _ hc hs ht =>
    rw [ht]
    exact p.congr hc
  | die hc hs ht =>
    rw [ht]
    exact p.killed.congr hc
  | hear src f hf hc hs ht =>
    rw [ht]
    exact (p.heard hf src).congr hc
  | refuse src f d hd hc hs ht =>
    rw [ht]
    exact (p.refused src f hd).congr hc
  | accept src ack h r hst hid hr hc hs ht =>
    rw [ht]
    exact (p.accepted src ack hst hid hr).congr hc
  | confirm src tag sig hst htag hv hc hs ht =>
    rw [ht]
    exact (p.confirmed src hst htag hv).congr hc

lemma greeting {inbound : Bool} {w : Endpoint S} (h : Greeting O inbound w) : Progress O w.conn w.told := by
  obtain ⟨n, hc⟩ := h.conn
  refine congr (c := { freshConnection O inbound with
    state := .handshaking, ephKeys := genEphemeral (O.env.oracle.secret n) }) ?_ hc
  exact ⟨fun _ => ⟨rfl, rfl, h.told⟩, nofun, nofun, fun ht => absurd h.told ht⟩

lemma stillborn {inbound : Bool} {w : Endpoint S} (h : Stillborn O inbound w) : Progress O w.conn w.told := by
  refine congr (c := (freshConnection O inbound).killed) ?_ h.conn
  exact ⟨nofun, nofun, nofun, fun ht => absurd h.told ht⟩

lemma run (hsec : O.env.self.secure = true) (inbound : Bool) (es : List (Stimulus S)) :
    Progress O (Endpoint.run O inbound es).conn (Endpoint.run O inbound es).told :=
  run_invariant (A := fun _ => True) (I := fun w => Progress O w.conn w.told) hsec
    ⟨trivial, fun _ _ _ => trivial⟩ greeting stillborn pulse fun _ _ => trivial

end Progress

structure Proved (own : LocalIdentity S) (c : PeerConnection S) (h : Hello S) (sig : S.Block 64) : Prop where
  id : h.nodeId = idFromIdentity h.idPubKey
  verified : S.verify (idTranscript h.ephPubKey c.ephKeys.pk h.nodeName) sig h.idPubKey = true
  trusted : own.trustedKeys = [] ∨ h.idPubKey ∈ own.trustedKeys

lemma Passed.proved {O : Owner S} {c : PeerConnection S} {told : List (Hello S)} {h : Hello S}
    {r : HandshakeResult S} {tag : S.Block 32} {sig : Option (S.Block 64)} (p : Passed O c told h r tag sig)
    (hid : O.env.self.hasIdentity = true) (hh : h.hasIdentity = true) :
    ∃ s, sig = some s ∧ Proved O.env.self c h s := by
  have huse : c.useIdentity = true := by rw [p.saved.useIdentity, hid, hh, Bool.and_self]
  obtain ⟨s, hs, hkey, hver, htr⟩ := identityFailure_none (p.identity huse)
  rw [p.saved.hello] at hkey hver htr
  exact ⟨s, hs, p.saved.peerId.symm.trans hkey.symm, hver, htr⟩

theorem admission_verified (O : Owner S) (hsec : O.env.self.secure = true)
    (hid : O.env.self.hasIdentity = true) (hreq : O.env.cfg.requireIdentity = true) (inbound : Bool)
    (es : List (Stimulus S)) (he : (Endpoint.run O inbound es).conn.state = .established ∨
      (Endpoint.run O inbound es).told ≠ []) :
    ∃ h tag sig r, firstHello (Endpoint.run O inbound es).conn.dispatched = some h ∧
      firstConfirm (Endpoint.run O inbound es).conn.dispatched = some (tag, some sig) ∧
      doHandshake (Endpoint.run O inbound es).conn.ephKeys h.ephPubKey O.env.self.groupKey
        O.env.self.groupName = some r ∧
      tag = r.expectedPeerTag ∧
      h.nodeId = idFromIdentity h.idPubKey ∧
      S.verify (idTranscript h.ephPubKey (Endpoint.run O inbound es).conn.ephKeys.pk h.nodeName) sig
        h.idPubKey = true ∧
      (O.env.self.trustedKeys = [] ∨ h.idPubKey ∈ O.env.self.trustedKeys) ∧
      (Endpoint.run O inbound es).conn.peerId = h.nodeId ∧
      (Endpoint.run O inbound es).told = [h] := by
  have hp := Progress.run hsec inbound es
  obtain ⟨h, r, tag, sig, p⟩ := hp.passed (he.elim hp.established id)
  have hhas : h.hasIdentity = true := by simpa [hid, hreq] using p.saved.required
  obtain ⟨s, rfl, hs⟩ := p.proved hid hhas
  exact ⟨h, tag, s, r, p.saved.first, p.first, p.saved.result, p.tag, hs.id, hs.verified, hs.trusted,
    p.saved.peerId, p.told⟩

def Owner.listing (requireIdentity : Bool) (h : Hello Suite.transparent) (sig : Option (Octets 64)) :
    Owner Suite.transparent where
  env := {
    cfg := { requireIdentity }
    self := { LocalIdentity.plain (Octets.fill [1]) with
      secure := true, hasIdentity := true, trustedKeys := [Octets.fill [2]]
      idKeys := ⟨Octets.fill [1], Octets.fill [1]⟩ }
    oracle := { Oracle.calm Suite.transparent with recv := fun _ =>
      [.data (encode (.hello false h) ++ encode (S := Suite.transparent) (.authConfirm identifiedTag sig))] } }
  acts _ := []

theorem admission_verified_listed :
    (Endpoint.run (.listing true (.identified [2]) (some (Octets.zero 64))) true
      [.io false false true]).told = [.identified [2]] := by
  obtain ⟨h, -, -, -, hf, -, -, -, -, -, -, -, ht⟩ := admission_verified
    (.listing true (.identified [2]) (some (Octets.zero 64))) rfl rfl rfl true [.io false false true]
    (.inl (by decide +kernel))
  rw [ht, show h = .identified [2] from Option.some.inj (hf.symm.trans (by decide +kernel))]

theorem listed_key_admitted (O : Owner S) (hsec : O.env.self.secure = true)
    (hid : O.env.self.hasIdentity = true) (hkeys : O.env.self.trustedKeys ≠ []) (inbound : Bool)
    (es : List (Stimulus S)) (hcond : O.env.cfg.requireIdentity = true ∨
      ∀ h, firstHello (Endpoint.run O inbound es).conn.dispatched = some h → h.hasIdentity = true)
    (he : (Endpoint.run O inbound es).conn.state = .established ∨ (Endpoint.run O inbound es).told ≠ []) :
    ∃ h tag sig, firstHello (Endpoint.run O inbound es).conn.dispatched = some h ∧
      firstConfirm (Endpoint.run O inbound es).conn.dispatched = some (tag, some sig) ∧
      S.verify (idTranscript h.ephPubKey (Endpoint.run O inbound es).conn.ephKeys.pk h.nodeName) sig
        h.idPubKey = true ∧
      h.idPubKey ∈ O.env.self.trustedKeys ∧
      (Endpoint.run O inbound es).conn.peerId = idFromIdentity h.idPubKey := by
  have hp := Progress.run hsec inbound es
  obtain ⟨h, r, tag, sig, p⟩ := hp.passed (he.elim hp.established id)
  have hhas : h.hasIdentity = true := by
    rcases hcond with hreq | hall
    · simpa [hid, hreq] using p.saved.required
    · exact hall h p.saved.first
  obtain ⟨s, rfl, hs⟩ := p.proved hid hhas
  exact ⟨h, tag, s, p.saved.first, p.first, hs.verified, hs.trusted.resolve_left hkeys,
    p.saved.peerId.trans hs.id⟩

theorem listed_key_admitted_listed :
    ∃ h, firstHello (Endpoint.run (.listing true (.identified [2]) (some (Octets.zero 64))) true
        [.io false false true]).conn.dispatched = some h ∧ h.idPubKey ∈ [(Octets.fill [2] : Octets 32)] := by
  obtain ⟨h, -, -, hf, -, -, hk, -⟩ := listed_key_admitted
    (.listing true (.identified [2]) (some (Octets.zero 64))) rfl rfl (by decide) true [.io false false true]
    (.inl rfl) (.inl (by decide +kernel))
  exact ⟨h, hf, hk⟩

def Hello.anonymous (id : Bytes) : Hello Suite.transparent :=
  { Hello.identified id with hasIdentity := false, idPubKey := Octets.zero 32 }

theorem unlisted_admitted :
    (Endpoint.run (.listing false (.anonymous [2]) none) true [.io false false true]).conn.state =
      .established ∧
    (Endpoint.run (.listing false (.anonymous [2]) none) true [.io false false true]).conn.peerId =
      idFromIdentity (S := Suite.transparent) (Octets.fill [2]) ∧
    (firstConfirm (Endpoint.run (.listing false (.anonymous [2]) none) true
      [.io false false true]).conn.dispatched).any (fun x => x.2.isNone) = true := by
  decide +kernel

end Multimaster
