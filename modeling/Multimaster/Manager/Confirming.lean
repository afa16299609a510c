import Multimaster.Connection.Admission
import Multimaster.Manager.Arrival
import Multimaster.Wire.Trimming

/-! What a connection that awaits the confirmation of its peer knows about it. -/

namespace Multimaster

variable {S : Suite}

/-- A node with an identity, as `mesh_impl::start` sets it up. -/
structure LocalIdentity.Certified (own : LocalIdentity S) : Prop where
  secure : own.secure = true
  identity : own.hasIdentity = true
  keys : ∃ seed, own.idKeys = identityFromSeed seed
  id : own.nodeId = idFromIdentity own.idKeys.pk

/-- The node trusts the other one, whose id, group key and group are known to it. -/
structure LocalIdentity.Trusts (own peer : LocalIdentity S) : Prop where
  key : own.groupKey = peer.groupKey
  group : own.groupName = peer.groupName
  listed : own.trustedKeys = [] ∨ peer.idKeys.pk ∈ own.trustedKeys
  apart : peer.nodeId ≠ own.nodeId

/-- The signatures of the node over its name are none over the beginning of it. -/
structure LocalIdentity.NameBound (own : LocalIdentity S) : Prop where
  transcript : ∀ e f, S.verify (idTranscript e f (own.nodeName.take 255))
    (S.sign (idTranscript e f own.nodeName) own.idKeys.sk) own.idKeys.pk = true →
      own.nodeName.take 255 = own.nodeName
  record : ∀ version, S.verify (idRecordMsg version (own.nodeName.take 255))
    (S.sign (idRecordMsg version own.nodeName) own.idKeys.sk) own.idKeys.pk = true →
      own.nodeName.take 255 = own.nodeName

/-- The connection `w` of `O` waits for the proof of its peer, and the first Hello on it is the one that
`O` decodes of what the connection `d` of `P` has sent. -/
structure Awaits (O P : Owner S) (w : Endpoint S) (d : PeerConnection S) : Prop where
  state : w.conn.state = .awaitingConfirm
  heard : ∃ ack h, (Frame.hello ack (P.hello d)).carried O.env.cfg.maxMessageBytes = some (.hello ack h) ∧
    firstHello w.conn.dispatched = some h

section Handshake

variable {O P : Owner S} {A : Frame S → Prop}

lemma Pulse.told_grows {w v : Endpoint S} (h : Pulse O A w v) : w.told <+: v.told := by
  cases h with
  | idle _ _ ht | send _ _ _ _ ht | vouch _ _ _ ht | die _ _ ht | hear _ _ _ _ _ ht | refuse _ _ _ _ _ _ ht
  | accept _ _ _ _ _ _ _ _ _ ht => exact ht ▸ List.prefix_rfl
  | confirm _ _ _ _ _ _ _ _ ht => exact ht ▸ List.prefix_append ..

lemma fail_told (cat : ErrorCategory) (err : ℤ) (what : String) (w : Endpoint S) :
    (fail (ownerSink O) 0 cat err what w).told = w.told := by
  unfold fail markDead
  extract_lets c w₁ w₂
  have h₂ : w₂.told = w.told := by
    unfold w₂
    split <;> rfl
  split_ifs
  · rfl
  · exact h₂
  · exact h₂

lemma Endpoint.run_keys (hsec : O.env.self.secure = true) (inbound : Bool) (es : List (Stimulus S)) :
    (Endpoint.run O inbound es).conn.state = .dead ∨
      ∃ a, (Endpoint.run O inbound es).conn.ephKeys = genEphemeral a := by
  refine run_invariant (A := fun _ => True)
    (I := fun w => w.conn.state = .dead ∨ ∃ a, w.conn.ephKeys = genEphemeral a) hsec ⟨trivial, fun _ _ _ => trivial⟩
    ?_ ?_ ?_ fun _ _ => trivial
  · rintro w ⟨⟨n, hc⟩, -, -⟩
    exact .inr ⟨_, standing_field hc PeerConnection.ephKeys fun _ => rfl⟩
  · rintro w ⟨hc, -, -⟩
    exact .inl (standing_field hc PeerConnection.state fun _ => rfl)
  · intro w v h hw
    have keep {d : PeerConnection S} (hc : v.conn.standing = d.standing) (hs : d.state = w.conn.state ∨ d.state = .dead)
        (hk : d.ephKeys = w.conn.ephKeys) : v.conn.state = .dead ∨ ∃ a, v.conn.ephKeys = genEphemeral a := by
      rw [standing_field hc PeerConnection.state fun _ => rfl,
        standing_field hc PeerConnection.ephKeys fun _ => rfl, hk]
      rcases hs with hs | hs
      · rwa [hs]
      · exact .inl hs
    -- a dead connection accepts nothing, so only an open one gets past the last two
    have opened {d : PeerConnection S} (hc : v.conn.standing = d.standing) (hs : w.conn.state ≠ .dead)
        (hk : d.ephKeys = w.conn.ephKeys) : v.conn.state = .dead ∨ ∃ a, v.conn.ephKeys = genEphemeral a := by
      rw [standing_field hc PeerConnection.ephKeys fun _ => rfl, hk]
      exact .inr (hw.resolve_left hs)
    cases h with
    | idle hc | send _ _ hc | vouch _ hc => exact keep hc (.inl rfl) rfl
    | die hc => exact keep hc (.inr rfl) rfl
    | hear _ _ _ hc => exact keep hc (.inl rfl) rfl
    | refuse src f d hd hc =>
      rcases hd with rfl | ⟨-, h, rfl⟩ <;> exact keep hc (.inr rfl) rfl
    | accept _ _ _ _ hst _ _ hc => exact opened hc (by rw [hst]; exact ConnState.noConfusion) rfl
    | confirm _ _ _ hst _ _ hc => exact opened hc (by rw [hst]; exact ConnState.noConfusion) rfl

lemma Endpoint.run_going (hsec : O.env.self.secure = true) (inbound : Bool) (es : List (Stimulus S)) :
    Going (Endpoint.run O inbound es) :=
  run_invariant (A := fun _ => True) hsec ⟨trivial, fun _ _ _ => trivial⟩ (Greeting.going hsec) (Stillborn.going hsec)
    (fun h => Pulses.going (.single h)) fun _ _ => trivial

lemma dispatch_authConfirm_told {w : Endpoint S} (hsec : w.conn.secure = true) (hst : w.conn.state = .awaitingConfirm)
    (ht : w.told = []) (tag : S.Block 32) (sig : Option (S.Block 64)) (consumed : ℕ) (src : Source) :
    (dispatch (ownerListener O) 0 (.authConfirm tag sig) consumed src w).2.told ≠ [] ↔
      tag = w.conn.expectedPeerTag ∧ (w.conn.useIdentity = true → identityFailure O.env.self w.conn sig = none) := by
  change (handleAuthConfirm (ownerListener O) 0 tag sig consumed src (w.stamped O src (.authConfirm tag sig))).2.told
    ≠ [] ↔ _
  unfold handleAuthConfirm
  extract_lets c w₁
  have hc : (!c.secure || c.state ≠ .awaitingConfirm) = false := by
    simp [show c.secure = true from hsec, show c.state = .awaitingConfirm from hst]
  have hexp : c.expectedPeerTag = w.conn.expectedPeerTag := rfl
  have huse : c.useIdentity = w.conn.useIdentity := rfl
  have hid : identityFailure (ownerListener O).env.self c sig = identityFailure O.env.self w.conn sig := rfl
  have failed (cat : ErrorCategory) (what : String) : (fail (ownerListener O).toSink 0 cat 0 what w₁).told = [] :=
    (fail_told cat 0 what w₁).trans ht
  rw [hc, if_neg Bool.false_ne_true, hexp, huse, hid]
  by_cases htag : tag = w.conn.expectedPeerTag
  · rw [if_neg (not_not.mpr htag)]
    cases hv : (if w.conn.useIdentity then identityFailure O.env.self w.conn sig else none) with
    | some what =>
      have hu : w.conn.useIdentity = true := by
        by_contra hu
        rw [if_neg hu] at hv
        cases hv
      rw [if_pos hu] at hv
      refine ⟨fun h => absurd (failed _ what) h, fun h => ?_⟩
      rw [h.2 hu] at hv
      cases hv
    | none =>
      refine ⟨fun _ => ⟨htag, fun hu => ?_⟩, fun _ => ?_⟩
      · rwa [if_pos hu] at hv
      · have hA : Sends O fun _ => True := ⟨trivial, fun _ _ _ => trivial⟩
        let w₂ : Endpoint S := { w₁ with
          conn := { w₁.conn with state := .established }, told := w₁.told ++ [c.peerHello] }
        have hp : w₂.told <+: (respond O w₂).told :=
          (respond_pulses hA w₂).preserves (I := fun v => w₂.told <+: v.told)
            (fun h hv => hv.trans h.told_grows) List.prefix_rfl
        exact hp.ne_nil (by simp [w₂])
  · rw [if_pos htag]
    exact ⟨fun h => absurd (failed _ _) h, fun h => absurd h.1 htag⟩

variable (hS : S.Lawful)
include hS

lemma Awaits.hello {w : Endpoint S} {d : PeerConnection S} (h : Awaits O P w d) :
    firstHello w.conn.dispatched = some (P.hello d).trimmed.received := by
  obtain ⟨ack, g, hc, hf⟩ := h.heard
  have hl : (Frame.hello ack (P.hello d)).size < 2 ^ 32 :=
    Nat.lt_of_le_of_lt (Frame.size_hello_le ack (P.hello d)) (by norm_num)
  rw [Frame.carried_eq hS.ofBytes_bytes _ hl] at hc
  split_ifs at hc
  cases hc
  exact hf

lemma Awaits.saved {x : Bool} {es : List (Stimulus S)} {d : PeerConnection S} (hsec : O.env.self.secure = true)
    (h : Awaits O P (Endpoint.run O x es) d) :
    ∃ r, Saved O (Endpoint.run O x es).conn (P.hello d).trimmed.received r ∧ (Endpoint.run O x es).told = [] := by
  obtain ⟨⟨g, r, hs⟩, -, ht⟩ := (Progress.run hsec x es).awaiting h.state
  obtain rfl : g = (P.hello d).trimmed.received := Option.some.inj (hs.first.symm.trans (h.hello hS))
  exact ⟨r, hs, ht⟩

end Handshake

lemma onPeerIdentity_version {env : Env S} {rec : IdentityRecord S} {n : Node S}
    (hn : ∀ v, n.idVersions.get? (idFromIdentity rec.idPubKey) = some v → v < rec.version) (k : ℕ) (p : Ptr) :
    (onPeerIdentity (managerSink env k) p rec n).idVersions.get? (idFromIdentity rec.idPubKey) = some rec.version ↔
      Accredited env rec := by
  by_cases hacc : Accredited env rec
  · have hold : (n.idVersions.get? (idFromIdentity rec.idPubKey)).any (fun v => rec.version ≤ v) = false := by
      cases hv : n.idVersions.get? (idFromIdentity rec.idPubKey) with
      | none => rfl
      | some v => simpa using hn v hv
    have hf := (forwardExcept_gossipSteps (closing_gossipSteps env k) (.identity rec) (some p) (entered rec n)).heard
    have hi : (forwardExcept (managerSink env k) (.identity rec) (some p) (entered rec n)).idVersions =
        (entered rec n).idVersions := congrArg (·.2.1) hf
    rw [onPeerIdentity_accepted hacc, hold, if_neg Bool.false_ne_true, hi, entered_idVersions, Dict.get?_insert,
      if_pos rfl]
    exact iff_of_true rfl hacc
  · rw [onPeerIdentity_refused hacc]
    exact iff_of_false (fun h => UInt64.lt_irrefl _ (hn _ h)) hacc

end Multimaster
