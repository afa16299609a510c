import Multimaster.Wire.Layout

/-! `try_decode_frame` reads exactly the layout of the frame bodies. -/

namespace Multimaster

open Shape
variable {S : Suite}

section Bodies

variable {w t : Bytes} {f : Frame S}

lemma number_u16 {v : ℕ} {l : Bytes} (h : number 2 v l) : number 2 (UInt16.ofNat v).toNat l := by
  have hlt := hostOrder_lt l
  rw [h.1] at hlt
  exact ⟨h.1, (UInt16.toNat_ofNat_of_lt' (by rw [h.2]; exact hlt)).trans h.2⟩

lemma number_u64 {v : ℕ} {l : Bytes} (h : number 8 v l) : number 8 (UInt64.ofNat v).toNat l := by
  have hlt := hostOrder_lt l
  rw [h.1] at hlt
  exact ⟨h.1, (UInt64.toNat_ofNat_of_lt' (by rw [h.2]; exact hlt)).trans h.2⟩

lemma readHello_layout {ack : Bool} : readHello ack w = some (f, t) ↔
    ∃ h l, f = .hello ack h ∧ w = l ++ t ∧ Layout f l := by
  unfold readHello
  constructor
  · intro h
    obtain ⟨nodeId, a, w, rfl, ha, h⟩ := (Recognizes.octets 16).bind_iff.mp h
    obtain ⟨version, b, w, rfl, hb, h⟩ := Recognizes.u8.bind_iff.mp h
    obtain ⟨port, c, w, rfl, hc, h⟩ := (Recognizes.number 2).bind_iff.mp h
    obtain ⟨name, d, w, rfl, hd, h⟩ := Recognizes.str.bind_iff.mp h
    obtain ⟨nonce, e, w, rfl, he, h⟩ := (Recognizes.number 8).bind_iff.mp h
    obtain ⟨secure, g, w, rfl, hg, h⟩ := Recognizes.u8.bind_iff.mp h
    obtain ⟨eph, i, w, rfl, hi, h⟩ := (Recognizes.block S 32).present_iff.mp h
    obtain ⟨hasId, j, w, rfl, hj, h⟩ := Recognizes.u8.bind_iff.mp h
    obtain ⟨idPk, k, w, rfl, hk, h⟩ := (Recognizes.block S 32).present_iff.mp h
    obtain ⟨nick, m, w, rfl, hm, h⟩ := Recognizes.str.present_iff.mp h
    obtain ⟨rfl, rfl⟩ := Recognizes.pure_iff.mp h
    refine ⟨_, _, rfl, ?_,
      .hello ack _ ha hb (number_u16 hc) hd (number_u64 he) ⟨secure, rfl, hg⟩ hi ⟨hasId, rfl, hj⟩ hk hm⟩
    simp only [List.append_assoc]
  · rintro ⟨h, l, rfl, rfl, hl⟩
    cases hl with
    | hello ack h ha hb hc hd he hg hi hj hk hm =>
      obtain ⟨secure, hsec, hg⟩ := hg
      obtain ⟨hasId, hident, hj⟩ := hj
      rw [← hsec] at hi
      rw [← hident] at hk hm
      simp only [List.append_assoc]
      refine (Recognizes.octets 16).bind_iff.mpr ⟨_, _, _, rfl, ha, ?_⟩
      refine Recognizes.u8.bind_iff.mpr ⟨_, _, _, rfl, hb, ?_⟩
      refine (Recognizes.number 2).bind_iff.mpr ⟨_, _, _, rfl, hc, ?_⟩
      refine Recognizes.str.bind_iff.mpr ⟨_, _, _, rfl, hd, ?_⟩
      refine (Recognizes.number 8).bind_iff.mpr ⟨_, _, _, rfl, he, ?_⟩
      refine Recognizes.u8.bind_iff.mpr ⟨_, _, _, rfl, hg, ?_⟩
      refine (Recognizes.block S 32).present_iff.mpr ⟨_, _, _, rfl, hi, ?_⟩
      refine Recognizes.u8.bind_iff.mpr ⟨_, _, _, rfl, hj, ?_⟩
      refine (Recognizes.block S 32).present_iff.mpr ⟨_, _, _, rfl, hk, ?_⟩
      refine Recognizes.str.present_iff.mpr ⟨_, _, _, rfl, hm, Recognizes.pure_iff.mpr ⟨?_, rfl⟩⟩
      simp only [hsec, hident, UInt16.ofNat_toNat, UInt64.ofNat_toNat]

lemma readData_layout : readData w = some (f, t) ↔ ∃ d l, f = .data d ∧ w = l ++ t ∧ Layout f l := by
  unfold readData
  constructor
  · intro h
    obtain ⟨src, a, w, rfl, ha, h⟩ := (Recognizes.octets 16).bind_iff.mp h
    obtain ⟨dst, b, w, rfl, hb, h⟩ := (Recognizes.octets 16).bind_iff.mp h
    obtain ⟨msgId, c, w, rfl, hc, h⟩ := (Recognizes.octets 16).bind_iff.mp h
    obtain ⟨ttl, d, w, rfl, hd, h⟩ := Recognizes.u8.bind_iff.mp h
    obtain ⟨plen, e, w, rfl, he, h⟩ := (Recognizes.number 4).bind_iff.mp h
    obtain ⟨payload, g, w, rfl, ⟨hlen, hg⟩, h⟩ := (Recognizes.take plen).bind_iff.mp h
    obtain ⟨rfl, rfl⟩ := Recognizes.pure_iff.mp h
    rw [← hlen] at he
    refine ⟨_, _, rfl, ?_, .data ⟨src, dst, msgId, ttl, payload⟩ ha hb hc hd he ⟨rfl, hg⟩⟩
    simp only [List.append_assoc]
  · rintro ⟨d, l, rfl, rfl, hl⟩
    cases hl with
    | data d ha hb hc hd he hg =>
      simp only [List.append_assoc]
      refine (Recognizes.octets 16).bind_iff.mpr ⟨_, _, _, rfl, ha, ?_⟩
      refine (Recognizes.octets 16).bind_iff.mpr ⟨_, _, _, rfl, hb, ?_⟩
      refine (Recognizes.octets 16).bind_iff.mpr ⟨_, _, _, rfl, hc, ?_⟩
      refine Recognizes.u8.bind_iff.mpr ⟨_, _, _, rfl, hd, ?_⟩
      refine (Recognizes.number 4).bind_iff.mpr ⟨_, _, _, rfl, he, ?_⟩
      exact (Recognizes.take _).bind_iff.mpr ⟨_, _, _, rfl, hg, Recognizes.pure_iff.mpr ⟨rfl, rfl⟩⟩

lemma readMembership_layout : readMembership w = some (f, t) ↔ ∃ m l, f = .membership m ∧ w = l ++ t ∧ Layout f l := by
  unfold readMembership
  constructor
  · intro h
    obtain ⟨origin, a, w, rfl, ha, h⟩ := (Recognizes.octets 16).bind_iff.mp h
    obtain ⟨version, b, w, rfl, hb, h⟩ := (Recognizes.number 8).bind_iff.mp h
    obtain ⟨count, c, w, rfl, hc, h⟩ := (Recognizes.number 2).bind_iff.mp h
    obtain ⟨neighbors, d, w, rfl, ⟨hlen, hd⟩, h⟩ := (Recognizes.ids count).bind_iff.mp h
    obtain ⟨rfl, rfl⟩ := Recognizes.pure_iff.mp h
    rw [← hlen] at hc
    refine ⟨_, _, rfl, ?_, .membership ⟨origin, _, neighbors⟩ ha (number_u64 hb) hc ⟨rfl, hd⟩⟩
    simp only [List.append_assoc]
  · rintro ⟨m, l, rfl, rfl, hl⟩
    cases hl with
    | membership m ha hb hc hd =>
      simp only [List.append_assoc]
      refine (Recognizes.octets 16).bind_iff.mpr ⟨_, _, _, rfl, ha, ?_⟩
      refine (Recognizes.number 8).bind_iff.mpr ⟨_, _, _, rfl, hb, ?_⟩
      refine (Recognizes.number 2).bind_iff.mpr ⟨_, _, _, rfl, hc, ?_⟩
      refine (Recognizes.ids _).bind_iff.mpr ⟨_, _, _, rfl, hd, Recognizes.pure_iff.mpr ⟨?_, rfl⟩⟩
      rw [UInt64.ofNat_toNat]

lemma readAuthConfirm_layout :
    readAuthConfirm w = some (f, t) ↔ ∃ tag sig l, f = .authConfirm tag sig ∧ w = l ++ t ∧ Layout f l := by
  have hsome : Recognizes (some <$> Reader.block S 64) (fun s l => ∃ k, s = some k ∧ key k l) := by
    intro w s t
    rw [map_eq_pure_bind, (Recognizes.block S 64).bind_iff]
    constructor
    · rintro ⟨k, l, m, rfl, hk, hp⟩
      obtain ⟨rfl, rfl⟩ := Recognizes.pure_iff.mp hp
      exact ⟨l, rfl, k, rfl, hk⟩
    · rintro ⟨l, rfl, k, rfl, hk⟩
      exact ⟨k, l, t, rfl, hk, rfl⟩
  have hpresent {c : Bool} {s : Option (S.Block 64)} {l : Bytes}
      (h : present c (fun s l => ∃ k, s = some k ∧ key k l) none s l) : c = s.isSome := by
    cases c with
    | true =>
      obtain ⟨k, rfl, -⟩ := h
      rfl
    | false =>
      rw [h.1]
      rfl
  unfold readAuthConfirm
  constructor
  · intro h
    obtain ⟨tag, a, w, rfl, ha, h⟩ := (Recognizes.block S 32).bind_iff.mp h
    obtain ⟨hasSig, b, w, rfl, hb, h⟩ := Recognizes.u8.bind_iff.mp h
    obtain ⟨sig, c, w, rfl, hc, h⟩ := hsome.present_iff.mp h
    obtain ⟨rfl, rfl⟩ := Recognizes.pure_iff.mp h
    have hsig := hpresent hc
    rw [hsig] at hc
    refine ⟨_, _, _, rfl, ?_, .authConfirm tag sig ha ⟨hasSig, hsig, hb⟩ hc⟩
    simp only [List.append_assoc]
  · rintro ⟨tag, sig, l, rfl, rfl, hl⟩
    cases hl with
    | authConfirm tag sig ha hb hc =>
      obtain ⟨hasSig, hsig, hb⟩ := hb
      rw [← hsig] at hc
      simp only [List.append_assoc]
      refine (Recognizes.block S 32).bind_iff.mpr ⟨_, _, _, rfl, ha, ?_⟩
      refine Recognizes.u8.bind_iff.mpr ⟨_, _, _, rfl, hb, ?_⟩
      exact hsome.present_iff.mpr ⟨_, _, _, rfl, hc, Recognizes.pure_iff.mpr ⟨rfl, rfl⟩⟩

lemma readIdentity_layout : readIdentity w = some (f, t) ↔ ∃ r l, f = .identity r ∧ w = l ++ t ∧ Layout f l := by
  unfold readIdentity
  constructor
  · intro h
    obtain ⟨idPubKey, a, w, rfl, ha, h⟩ := (Recognizes.block S 32).bind_iff.mp h
    obtain ⟨version, b, w, rfl, hb, h⟩ := (Recognizes.number 8).bind_iff.mp h
    obtain ⟨signature, c, w, rfl, hc, h⟩ := (Recognizes.block S 64).bind_iff.mp h
    obtain ⟨name, d, w, rfl, hd, h⟩ := Recognizes.str.bind_iff.mp h
    obtain ⟨rfl, rfl⟩ := Recognizes.pure_iff.mp h
    refine ⟨_, _, rfl, ?_, .identity ⟨idPubKey, _, name, signature⟩ ha (number_u64 hb) hc hd⟩
    simp only [List.append_assoc]
  · rintro ⟨r, l, rfl, rfl, hl⟩
    cases hl with
    | identity r ha hb hc hd =>
      simp only [List.append_assoc]
      refine (Recognizes.block S 32).bind_iff.mpr ⟨_, _, _, rfl, ha, ?_⟩
      refine (Recognizes.number 8).bind_iff.mpr ⟨_, _, _, rfl, hb, ?_⟩
      refine (Recognizes.block S 64).bind_iff.mpr ⟨_, _, _, rfl, hc, ?_⟩
      refine Recognizes.str.bind_iff.mpr ⟨_, _, _, rfl, hd, Recognizes.pure_iff.mpr ⟨?_, rfl⟩⟩
      rw [UInt64.ofNat_toNat]

lemma readBody_layout : readBody w = some (f, t) ↔ ∃ l, w = f.type :: (l ++ t) ∧ Layout f l := by
  unfold readBody
  rw [Recognizes.u8.bind_iff]
  constructor
  · rintro ⟨type, l, m, rfl, rfl, h⟩
    split at h
    · obtain ⟨h, l, rfl, rfl, hl⟩ := readHello_layout.mp h
      exact ⟨l, rfl, hl⟩
    · obtain ⟨h, l, rfl, rfl, hl⟩ := readHello_layout.mp h
      exact ⟨l, rfl, hl⟩
    · obtain ⟨rfl, rfl⟩ := Recognizes.pure_iff.mp h
      exact ⟨[], rfl, .heartbeat⟩
    · obtain ⟨d, l, rfl, rfl, hl⟩ := readData_layout.mp h
      exact ⟨l, rfl, hl⟩
    · obtain ⟨rfl, rfl⟩ := Recognizes.pure_iff.mp h
      exact ⟨[], rfl, .goodbye⟩
    · obtain ⟨m, l, rfl, rfl, hl⟩ := readMembership_layout.mp h
      exact ⟨l, rfl, hl⟩
    · obtain ⟨tag, sig, l, rfl, rfl, hl⟩ := readAuthConfirm_layout.mp h
      exact ⟨l, rfl, hl⟩
    · obtain ⟨r, l, rfl, rfl, hl⟩ := readIdentity_layout.mp h
      exact ⟨l, rfl, hl⟩
    · cases h
  · rintro ⟨l, rfl, hl⟩
    refine ⟨f.type, [f.type], l ++ t, rfl, rfl, ?_⟩
    cases f with
    | hello ack h => cases ack <;> exact readHello_layout.mpr ⟨h, l, rfl, rfl, hl⟩
    | heartbeat =>
      cases hl
      rfl
    | data d => exact readData_layout.mpr ⟨d, l, rfl, rfl, hl⟩
    | goodbye =>
      cases hl
      rfl
    | membership m => exact readMembership_layout.mpr ⟨m, l, rfl, rfl, hl⟩
    | authConfirm tag sig => exact readAuthConfirm_layout.mpr ⟨tag, sig, l, rfl, rfl, hl⟩
    | identity r => exact readIdentity_layout.mpr ⟨r, l, rfl, rfl, hl⟩

end Bodies

end Multimaster
