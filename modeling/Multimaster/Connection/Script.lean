import Multimaster.Connection.Backpressure

/-! What an honest end has to say, as the bytes that the other end reads. -/

namespace Multimaster

variable {S : Suite}

section Wire

/-- The frame arrives as it was sent, under the limit `M`. -/
structure Frame.Clear (M : ℕ) (f : Frame S) : Prop where
  fits : f.Fits
  size : f.size ≤ M
  same : f.received = f

variable {M : ℕ} {f : Frame S} {b t : Bytes}

lemma lengthField_networkOrder {n : ℕ} (hn : n < 2 ^ 32) (l : Bytes) :
    lengthField (networkOrder 4 n ++ l) = n := by
  rw [lengthField, List.take_left' (networkOrder_length 4 n)]
  exact hostOrder_networkOrder (by omega)

lemma lengthField_cut {n : ℕ} (hn : n < 2 ^ 32) {l : Bytes} (hb : b <+: networkOrder 4 n ++ l)
    (h₄ : ¬b.length < 4) : lengthField b = n := by
  obtain ⟨t, ht⟩ := hb
  rw [← lengthField_append (by omega) t, ht, lengthField_networkOrder hn]

variable (hS : S.Lawful) (hM : M + 100 ≤ 2 ^ 32)

include hS hM

lemma decode_along (hf : f.Clear M) (hb : b <+: encode f ++ t) :
    encode f <+: b ∧ tryDecodeFrame b M = .ok f (encode f).length ∨
      tryDecodeFrame (S := S) b M = .needMore := by
  have hsize := hf.size
  have hok (t : Bytes) : tryDecodeFrame (encode f ++ t) M = .ok f (encode f).length := by
    rw [tryDecodeFrame_encode hS.ofBytes_bytes t hf.fits hf.size (by omega), hf.same, encode_length,
      Nat.mod_eq_of_lt (by omega)]
  by_cases hl : (encode f).length ≤ b.length
  · have hp : encode f <+: b := List.prefix_of_prefix_length_le (List.prefix_append _ _) hb hl
    refine .inl ⟨hp, ?_⟩
    obtain ⟨t', rfl⟩ := hp
    exact hok t'
  · refine .inr (tryDecodeFrame_cut (hok t) hb ?_)
    have hlf : lengthField (encode f ++ t) = f.size := by
      rw [encode, patchLength, List.append_assoc]
      exact lengthField_networkOrder (by rw [← Frame.size]; omega) _
    rw [encode_length] at hl
    omega

lemma record_along {key : S.Block 32} {ctr : UInt64} (hf : f.size ≤ M)
    (hb : b <+: (Sent.record key ctr f).wire ++ t) :
    (Sent.record key ctr f).wire <+: b ∧
        readRecord M (some (key, ctr)) b = .opened (encode f) (Sent.record key ctr f).wire.length ∨
      readRecord M (some (key, ctr)) b = .needMore := by
  let ct := S.encrypt key (nonceFromCounter ctr) (encode f)
  have hwire : (Sent.record key ctr f).wire = networkOrder 4 ((encode f).length + 16) ++ ct := rfl
  have hct : ct.length = (encode f).length + 16 := hS.encrypt_length _ _ _
  have hlen : (Sent.record key ctr f).wire.length = 4 + ((encode f).length + 16) := by
    rw [hwire, List.length_append, networkOrder_length, hct]
  have henc := encode_length f
  unfold readRecord
  by_cases h₄ : b.length < 4
  · exact .inr (if_pos h₄)
  rw [if_neg h₄]
  have hb' := hb
  rw [hwire, List.append_assoc] at hb'
  rw [lengthField_cut (by omega) hb' h₄, if_neg (by omega)]
  by_cases hl : b.length < 4 + ((encode f).length + 16)
  · exact .inr (if_pos hl)
  · left
    rw [if_neg hl]
    have hp : (Sent.record key ctr f).wire <+: b :=
      List.prefix_of_prefix_length_le (List.prefix_append _ _) hb (by omega)
    refine ⟨hp, ?_⟩
    obtain ⟨t', rfl⟩ := hp
    have hbody : frameBody ((Sent.record key ctr f).wire ++ t') = ct := by
      rw [frameBody, hwire, List.append_assoc, lengthField_networkOrder (by omega),
        List.drop_left' (networkOrder_length _ _), List.take_left' hct]
    have hopen : openRecord (some (key, ctr)) ct = some (encode f) := by
      simp only [openRecord, Option.bind_some]
      rw [if_neg (by omega)]
      exact hS.decrypt_encrypt _ _ _
    rw [hbody, hopen, hlen, Nat.mod_eq_of_lt (by omega)]

end Wire

section Script

structure Script (S : Suite) where
  hello : Frame S
  confirm : Frame S
  key : S.Block 32

def Script.items (P : Script S) (fs : List (Frame S)) : List (Sent S) :=
  .plain P.hello :: .plain P.confirm :: recordsFrom P.key 0 fs

lemma Script.items_append (P : Script S) (fs gs : List (Frame S)) :
    P.items (fs ++ gs) = P.items fs ++ recordsFrom P.key fs.length gs := by
  rw [items, recordsFrom_append, Nat.zero_add]
  rfl

lemma Script.items_cut {P : Script S} {fs gs : List (Frame S)} (h : P.items fs <+: P.items gs) :
    fs <+: gs := by
  have hf := h.map Sent.frame
  simp only [items, List.map_cons, recordsFrom_frames] at hf
  exact (List.prefix_cons_inj _).mp ((List.prefix_cons_inj _).mp hf)

lemma sealedFrames_items (P : Script S) (fs : List (Frame S)) : sealedFrames (P.items fs) = fs := by
  have hall : (recordsFrom P.key 0 fs).filter Sent.isRecord = recordsFrom P.key 0 fs :=
    List.filter_eq_self.mpr fun _ => recordsFrom_isRecord
  rw [sealedFrames, Script.items, List.filter_cons_of_neg (by nofun), List.filter_cons_of_neg (by nofun), hall,
    recordsFrom_frames]

inductive Spoken (Q : Script S) (K : Frame S → Prop) : List (Sent S) → Prop where
  | nothing : Spoken Q K []
  | hello : Spoken Q K [.plain Q.hello]
  | items (fs : List (Frame S)) (hf : ∀ f ∈ fs, K f) : Spoken Q K (Q.items fs)

variable {Q : Script S} {K : Frame S → Prop} {T : List (Sent S)}

lemma Spoken.first (h : Spoken Q K T) : ∃ t, T.flatMap Sent.wire <+: encode Q.hello ++ t := by
  cases h with
  | nothing => exact ⟨[], List.nil_prefix⟩
  | hello => exact ⟨[], by simp [Sent.wire]⟩
  | items fs => exact ⟨_, List.prefix_rfl⟩

lemma Spoken.second (h : Spoken Q K T) {b : Bytes} (hb : encode Q.hello ++ b <+: T.flatMap Sent.wire) :
    ∃ t, b <+: encode Q.confirm ++ t ∧ (b = [] ∨ ∃ fs, (∀ f ∈ fs, K f) ∧ T = Q.items fs) := by
  have hpos : 0 < (encode Q.hello).length := by rw [encode_length]; omega
  cases h with
  | nothing =>
    have := hb.length_le
    simp only [List.length_append, List.flatMap_nil, List.length_nil] at this
    omega
  | hello =>
    have hnil : b = [] := by
      have := hb.length_le
      simp only [List.length_append, List.flatMap_cons, List.flatMap_nil, List.append_nil, Sent.wire] at this
      exact List.eq_nil_of_length_eq_zero (by omega)
    exact ⟨[], by rw [hnil]; exact List.nil_prefix, .inl hnil⟩
  | items fs hf =>
    rw [Script.items, List.flatMap_cons, List.flatMap_cons] at hb
    exact ⟨_, (List.prefix_append_right_inj _).mp hb, .inr ⟨fs, hf, rfl⟩⟩

lemma Spoken.next (h : Spoken Q K T) {gs rest : List (Frame S)} (hT : T = Q.items (gs ++ rest)) {b : Bytes}
    (hb : (Q.items gs).flatMap Sent.wire ++ b <+: T.flatMap Sent.wire) :
    b = [] ∨ ∃ g rest' t, rest = g :: rest' ∧ K g ∧
      b <+: (Sent.record Q.key (UInt64.ofNat gs.length) g).wire ++ t := by
  rw [hT, Script.items_append, List.flatMap_append, List.prefix_append_right_inj] at hb
  cases rest with
  | nil => exact .inl (List.prefix_nil.mp hb)
  | cons g rest' =>
    rw [recordsFrom, List.flatMap_cons] at hb
    refine .inr ⟨g, rest', _, rfl, ?_, hb⟩
    cases h with
    | nothing => cases hT
    | hello => cases hT
    | items fs hf =>
      have hfs : fs = gs ++ g :: rest' := by
        have := congrArg (List.map Sent.frame) hT
        simpa [Script.items, recordsFrom_frames] using this
      exact hf g (by simp [hfs])

end Script

structure Frame.Traffic (M : ℕ) (f : Frame S) : Prop extends f.Clear M where
  chat : (∀ ack h, f ≠ .hello ack h) ∧ ∀ tag sig, f ≠ .authConfirm tag sig

structure Meeting (O : Owner S) where
  mine : Script S
  theirs : Script S
  ack : Bool
  peer : Hello S
  keys : EphemeralKeypair S
  result : HandshakeResult S
  sig : Option (S.Block 64)
  hello_eq : theirs.hello = .hello ack peer
  group : peer.protocolVersion = O.env.self.protocolVersion ∧ peer.groupName = O.env.self.groupName
  secure : peer.secure = true
  identity : (O.env.self.hasIdentity && O.env.cfg.requireIdentity && !peer.hasIdentity) = false
  agreed : doHandshake keys peer.ephPubKey O.env.self.groupKey O.env.self.groupName = some result
  session : result.session = ⟨mine.key, theirs.key, 0, 0⟩
  mine_confirm : mine.confirm = .authConfirm result.myConfirmTag
    (if O.env.self.hasIdentity && peer.hasIdentity then
      some (S.sign (idTranscript keys.pk peer.ephPubKey O.env.self.nodeName) O.env.self.idKeys.sk) else none)
  confirm_eq : theirs.confirm = .authConfirm result.expectedPeerTag sig
  proved : (O.env.self.hasIdentity && peer.hasIdentity) = true → ∀ c : PeerConnection S,
    c.peerHello = peer → c.peerId = peer.nodeId → c.ephKeys = keys → identityFailure O.env.self c sig = none
  hello_clear : theirs.hello.Clear O.env.cfg.maxMessageBytes
  confirm_clear : theirs.confirm.Clear O.env.cfg.maxMessageBytes

end Multimaster
