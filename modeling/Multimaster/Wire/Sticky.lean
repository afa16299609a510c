import Multimaster.Wire.ScanAgrees

/-! `try_decode_frame` as it is written refines the decoder of the model, and accepts exactly the grammar. -/

namespace Multimaster

variable {S : Suite}
open Scan

/-- The fields that the frame has, over those that were there before. -/
def Hello.fill (old h : Hello S) : Hello S :=
  { h with
    ephPubKey := if h.secure then h.ephPubKey else old.ephPubKey
    idPubKey := if h.hasIdentity then h.idPubKey else old.idPubKey
    nodeName := if h.hasIdentity then h.nodeName else old.nodeName }

def ParsedFrame.fill (out : ParsedFrame S) (f : Frame S) : ParsedFrame S :=
  match f with
  | .hello _ h => { out with type := f.type, hello := out.hello.fill h }
  | .heartbeat | .goodbye => { out with type := f.type }
  | .data data => { out with type := f.type, data }
  | .membership membership => { out with type := f.type, membership }
  | .authConfirm authTag sig =>
    { out with type := f.type, authTag, hasAuthSig := sig.isSome, authSig := sig.getD out.authSig }
  | .identity identity => { out with type := f.type, identity }

section Bodies

lemma scanHello_agrees (ack : Bool) (old : Hello S) :
    Agrees (fun f h' => ∃ h, f = .hello ack h ∧ h' = old.fill h) (scanHello old) (readHello ack) := by
  unfold scanHello readHello
  refine (Agrees.octets _).bind fun nodeId _ hx => hx ▸ ?_
  refine Agrees.u8.bind fun version _ hx => hx ▸ ?_
  refine (Agrees.unsigned 2).bind fun port _ hx => hx ▸ ?_
  refine Agrees.str.bind fun name _ hx => hx ▸ ?_
  refine (Agrees.unsigned 8).bind fun nonce _ hx => hx ▸ ?_
  refine Agrees.u8.bind fun secure _ hx => hx ▸ ?_
  refine (Agrees.block _).optional fun eph eph' hy hn => ?_
  refine Agrees.u8.bind fun hasId _ hx => hx ▸ ?_
  refine (Agrees.block _).optional fun idPk idPk' hy' hn' => ?_
  refine Agrees.str.optional fun nick nick' hy'' hn'' => ?_
  refine .pure ⟨_, rfl, ?_⟩
  have heph : eph' = if secure != 0 then eph else old.ephPubKey := by
    split_ifs with hs
    · exact (hy hs).symm
    · exact (hn (by simpa using hs)).2
  have hpk : idPk' = if hasId != 0 then idPk else old.idPubKey := by
    split_ifs with hs
    · exact (hy' hs).symm
    · exact (hn' (by simpa using hs)).2
  have hnick : nick' = if hasId != 0 then nick else old.nodeName := by
    split_ifs with hs
    · exact (hy'' hs).symm
    · exact (hn'' (by simpa using hs)).2
  rw [heph, hpk, hnick]
  rfl

lemma scanData_agrees (old : DataView) :
    Agrees (fun f d => f = .data d) (scanData old) (readData (S := S)) := by
  unfold scanData readData
  refine (Agrees.octets _).bind fun src _ hx => hx ▸ ?_
  refine (Agrees.octets _).bind fun dst _ hx => hx ▸ ?_
  refine (Agrees.octets _).bind fun msgId _ hx => hx ▸ ?_
  refine Agrees.u8.bind fun ttl _ hx => hx ▸ ?_
  refine (Agrees.unsigned 4).bind fun plen _ hx => hx ▸ ?_
  refine (Agrees.take _).bind fun payload _ hx => hx ▸ ?_
  exact .pure rfl

lemma scanMembership_agrees (old : MembershipRecord) :
    Agrees (fun f m => f = .membership m) (scanMembership old) (readMembership (S := S)) := by
  unfold scanMembership readMembership
  refine (Agrees.octets _).bind fun origin _ hx => hx ▸ ?_
  refine (Agrees.unsigned 8).bind fun version _ hx => hx ▸ ?_
  refine (Agrees.unsigned 2).bind fun count _ hx => hx ▸ ?_
  refine (Agrees.ids _ []).bind fun neighbors _ hx => ?_
  rw [List.nil_append] at hx
  subst hx
  exact .pure rfl

lemma scanAuthConfirm_agrees (out : ParsedFrame S) :
    Agrees (fun f o => ∃ tag sig, f = .authConfirm tag sig ∧
      o = { out with authTag := tag, hasAuthSig := sig.isSome, authSig := sig.getD out.authSig })
      (scanAuthConfirm out) readAuthConfirm := by
  have hsome : Agrees (fun x y => x = some y) (Scan.block out.authSig) (some <$> Reader.block S 64) := by
    rw [map_eq_pure_bind]
    exact (Agrees.block _).returning fun x y hy => congrArg some hy
  unfold scanAuthConfirm readAuthConfirm
  refine (Agrees.block _).bind fun tag _ hx => hx ▸ ?_
  refine Agrees.u8.bind fun hasSig _ hx => hx ▸ ?_
  refine hsome.optional fun sig sig' hy hn => .pure ⟨tag, sig, rfl, ?_⟩
  cases hc : hasSig != 0 with
  | true => rw [hy hc]; rfl
  | false =>
    obtain ⟨rfl, rfl⟩ := hn hc
    rfl

lemma scanIdentity_agrees (old : IdentityRecord S) :
    Agrees (fun f r => f = .identity r) (scanIdentity old) readIdentity := by
  unfold scanIdentity readIdentity
  refine (Agrees.block _).bind fun idPubKey _ hx => hx ▸ ?_
  refine (Agrees.unsigned 8).bind fun version _ hx => hx ▸ ?_
  refine (Agrees.block _).bind fun signature _ hx => hx ▸ ?_
  refine Agrees.str.bind fun name _ hx => hx ▸ ?_
  exact .pure rfl

def readFields : FrameType → Reader (Frame S)
  | .hello => readHello false
  | .helloAck => readHello true
  | .heartbeat => pure .heartbeat
  | .data => readData
  | .goodbye => pure .goodbye
  | .membership => readMembership
  | .authConfirm => readAuthConfirm
  | .identityRecord => readIdentity

lemma readBody_byte (k : FrameType) (w : Bytes) : readBody (S := S) (k.byte :: w) = readFields k w := by cases k <;> rfl

lemma readBody_unknown {type : UInt8} (h : FrameType.ofByte? type = none) (w : Bytes) :
    readBody (S := S) (type :: w) = none := by
  have hne (k : FrameType) : k.byte ≠ type := by
    have hk := List.find?_eq_none.mp h k (by cases k <;> decide)
    simpa using hk
  rw [Option.eq_none_iff_forall_ne_some]
  rintro ⟨f, t⟩ hr
  obtain ⟨l, hl, -⟩ := readBody_layout.mp hr
  have htype : type = f.type := (List.cons.inj hl).1
  cases f with
  | hello ack h =>
    cases ack with
    | false => exact hne .hello htype.symm
    | true => exact hne .helloAck htype.symm
  | heartbeat => exact hne .heartbeat htype.symm
  | data => exact hne .data htype.symm
  | goodbye => exact hne .goodbye htype.symm
  | membership => exact hne .membership htype.symm
  | authConfirm => exact hne .authConfirm htype.symm
  | identity => exact hne .identityRecord htype.symm

lemma scanFields_agrees (out : ParsedFrame S) (k : FrameType) :
    Agrees (fun f o => o = out.fill f) (scanFields { out with type := k.byte } k) (readFields k) := by
  cases k with
  | hello =>
    simp only [scanFields, readFields]
    refine (scanHello_agrees false out.hello).storing ?_
    rintro f h' ⟨h, rfl, rfl⟩
    rfl
  | helloAck =>
    simp only [scanFields, readFields]
    refine (scanHello_agrees true out.hello).storing ?_
    rintro f h' ⟨h, rfl, rfl⟩
    rfl
  | heartbeat | goodbye => exact .pure rfl
  | data =>
    simp only [scanFields, readFields]
    refine (scanData_agrees out.data).storing ?_
    rintro f d rfl
    rfl
  | membership =>
    simp only [scanFields, readFields]
    refine (scanMembership_agrees out.membership).storing ?_
    rintro f d rfl
    rfl
  | authConfirm =>
    simp only [scanFields, readFields]
    refine (scanAuthConfirm_agrees { out with type := 7 }).weaken ?_
    rintro f d ⟨tag, sig, rfl, rfl⟩
    rfl
  | identityRecord =>
    simp only [scanFields, readFields]
    refine (scanIdentity_agrees out.identity).storing ?_
    rintro f d rfl
    rfl

lemma scanBody_spec (out : ParsedFrame S) {inp : Bytes} {s : Cursor} (hs : s.p + s.remaining ≤ inp.length)
    (hb : s.bad = false) :
    (∀ f t, readBody (s.window inp) = some (f, t) →
      ((scanBody out).run inp s).1 = (true, out.fill f) ∧ ((scanBody out).run inp s).2.bad = false) ∧
    (readBody (S := S) (s.window inp) = none →
      ((scanBody out).run inp s).1.1 = false ∨ ((scanBody out).run inp s).2.bad = true) := by
  let s₁ := (u8.run inp s).2
  have hs₁ : s₁.p + s₁.remaining ≤ inp.length := (u8.follows inp s).bound.trans_le hs
  unfold scanBody
  cases hw : s.window inp with
  | nil =>
    have hbad : s₁.bad = true := Agrees.u8.fail inp s hs hb (by rw [hw]; rfl)
    refine ⟨fun f t h => (by cases h), fun _ => .inr ?_⟩
    exact (Scan.follows _ inp s₁).sticky hbad
  | cons type w =>
    obtain ⟨htype, hb₁, hw₁⟩ := Agrees.u8.ok inp s type w hs hb (by rw [hw]; rfl)
    rw [run_bind, ← htype]
    cases hk : FrameType.ofByte? type with
    | none =>
      rw [readBody_unknown hk]
      exact ⟨fun f t h => (by cases h), fun _ => .inl rfl⟩
    | some k =>
      obtain rfl : k.byte = type := by simpa using List.find?_some hk
      have h := scanFields_agrees out k
      rw [readBody_byte, ← hw₁]
      refine ⟨fun f t hf => ?_, fun hf => .inr (h.fail inp s₁ hs₁ hb₁ hf)⟩
      obtain ⟨hv, hb', -⟩ := h.ok inp s₁ f t hs₁ hb₁ hf
      exact ⟨congrArg (Prod.mk true) hv, hb'⟩

end Bodies

section Decoder

variable {inp : Bytes} {M : ℕ} (out : ParsedFrame S) (consumed : ℕ)

lemma decodeFrame_eq : decodeFrame inp M out consumed =
    if inp.length < 4 then { status := .needMore, out, consumed }
    else if lengthField inp < 1 then { status := .error, out, consumed }
    else if lengthField inp > M then { status := .error, out, consumed }
    else if inp.length < 4 + lengthField inp then { status := .needMore, out, consumed }
    else
      let r := (scanBody out).run inp { p := 4, remaining := lengthField inp }
      if !r.1.1 then { status := .error, out := r.1.2, consumed, read := r.2.read }
      else if r.2.bad then { status := .error, out := r.1.2, consumed, read := r.2.read }
      else { status := .ok, out := r.1.2, consumed := (4 + lengthField inp) % 2 ^ 32, read := r.2.read } := rfl

lemma decodeFrame_whole (h₁ : 1 ≤ lengthField inp) (hM : lengthField inp ≤ M) (hl : 4 + lengthField inp ≤ inp.length) :
    (∀ i ∈ (decodeFrame inp M out consumed).read, 4 ≤ i ∧ i < 4 + lengthField inp) ∧
    (∀ f t, readBody (frameBody inp) = some (f, t) →
      (decodeFrame inp M out consumed).status = .ok ∧ (decodeFrame inp M out consumed).out = out.fill f ∧
        (decodeFrame inp M out consumed).consumed = (4 + lengthField inp) % 2 ^ 32) ∧
    (readBody (S := S) (frameBody inp) = none → (decodeFrame inp M out consumed).status = .error) := by
  let s : Cursor := { p := 4, remaining := lengthField inp }
  have hs : s.p + s.remaining ≤ inp.length := hl
  obtain ⟨hok, hfail⟩ := scanBody_spec out hs rfl
  obtain ⟨l, hread, hin⟩ := ((scanBody out).follows inp s).read
  have hread : ((scanBody out).run inp s).2.read = l := hread
  rw [decodeFrame_eq, if_neg (by omega), if_neg (by omega), if_neg (by omega), if_neg (by omega)]
  dsimp only
  refine ⟨?_, fun f t hf => ?_, fun hf => ?_⟩
  · split_ifs <;> exact fun i hi => hin i (hread ▸ hi)
  · obtain ⟨hv, hb⟩ := hok f t hf
    rw [hv, if_neg (by simp), hb, if_neg (by simp)]
    exact ⟨rfl, rfl, rfl⟩
  · rcases hfail hf with hv | hb
    · rw [if_pos (by rw [hv]; rfl)]
    · rw [if_pos hb]
      split_ifs <;> rfl

lemma tryDecodeFrame_refines :
    (tryDecodeFrame (S := S) inp M = .needMore → (decodeFrame inp M out consumed).status = .needMore) ∧
    (tryDecodeFrame (S := S) inp M = .error → (decodeFrame inp M out consumed).status = .error) ∧
    ∀ f n, tryDecodeFrame inp M = .ok f n → (decodeFrame inp M out consumed).status = .ok ∧
      (decodeFrame inp M out consumed).out = out.fill f ∧ (decodeFrame inp M out consumed).consumed = n := by
  refine ⟨fun h => ?_, fun h => ?_, fun f n h => ?_⟩
  · rw [decodeFrame_eq]
    rcases tryDecodeFrame_eq_needMore.mp h with h | ⟨h₁, h₂, h₃⟩
    · rw [if_pos h]
    · split_ifs <;> first | rfl | omega
  · obtain ⟨h₄, h | h | ⟨h, hbody⟩⟩ := tryDecodeFrame_eq_error.mp h
    · rw [decodeFrame_eq, if_neg (by omega), if_pos h]
    · rw [decodeFrame_eq, if_neg (by omega)]
      split_ifs <;> rfl
    · by_cases hL : lengthField inp < 1 ∨ M < lengthField inp
      · rw [decodeFrame_eq, if_neg (by omega)]
        split_ifs <;> first | rfl | omega
      · exact (decodeFrame_whole out consumed (by omega) (by omega) h).2.2 hbody
  · obtain ⟨h₁, h₂, h₃, ⟨t, hbody⟩, rfl⟩ := tryDecodeFrame_eq_ok.mp h
    exact (decodeFrame_whole out consumed h₁ h₂ h₃).2.1 f t hbody

end Decoder

theorem decoder_grammar (inp : Bytes) (M : ℕ) (out : ParsedFrame S) (consumed : ℕ) :
    let L := lengthField inp
    let r := decodeFrame inp M out consumed
    let wellFormed := 4 ≤ inp.length ∧ 1 ≤ L ∧ L ≤ M ∧ 4 + L ≤ inp.length ∧
      ∃ (f : Frame S) (l t : Bytes), frameBody inp = f.type :: (l ++ t) ∧ Layout f l
    let incomplete := inp.length < 4 ∨ (1 ≤ L ∧ L ≤ M ∧ inp.length < 4 + L)
    (r.status = .ok ↔ wellFormed) ∧ (r.status = .needMore ↔ incomplete) ∧
    (r.status = .error ↔ ¬wellFormed ∧ ¬incomplete) ∧
    (r.status = .ok → ∀ (f : Frame S) (l t : Bytes),
      frameBody inp = f.type :: (l ++ t) → Layout f l → r.out = out.fill f) ∧
    ∀ i ∈ r.read, 4 ≤ i ∧ i < 4 + L := by
  intro L r wellFormed incomplete
  have hr : r = decodeFrame inp M out consumed := rfl
  rw [decodeFrame_eq] at hr
  by_cases h₄ : inp.length < 4
  · rw [if_pos h₄] at hr
    have hw : ¬wellFormed := fun h => by have := h.1; omega
    have hi : incomplete := .inl h₄
    simp [hr, hw, hi]
  by_cases hL : L < 1 ∨ M < L
  · have hstatus : r = { status := .error, out, consumed } := by
      rw [hr, if_neg h₄]
      split_ifs with h₁ h₂ h₃
      · rfl
      · rfl
      all_goals exact absurd hL (by omega)
    have hw : ¬wellFormed := fun h => by have := h.2.1; have := h.2.2.1; omega
    have hi : ¬incomplete := by
      rintro (h | ⟨h, h', -⟩) <;> omega
    simp [hstatus, hw, hi]
  by_cases hshort : inp.length < 4 + L
  · rw [if_neg h₄, if_neg (by omega), if_neg (by omega), if_pos hshort] at hr
    have hw : ¬wellFormed := fun h => by have := h.2.2.2.1; omega
    have hi : incomplete := .inr ⟨by omega, by omega, hshort⟩
    simp [hr, hw, hi]
  have h₁ : 1 ≤ lengthField inp := by omega
  have hM : lengthField inp ≤ M := by omega
  obtain ⟨hread, hok, hfail⟩ := decodeFrame_whole out consumed h₁ hM (by omega)
  have hi : ¬incomplete := by
    rintro (h | ⟨-, -, h⟩) <;> omega
  cases hbody : readBody (S := S) (frameBody inp) with
  | none =>
    have hw : ¬wellFormed := by
      rintro ⟨-, -, -, -, f, l, t, hl, hlay⟩
      rw [readBody_layout.mpr ⟨l, hl, hlay⟩] at hbody
      cases hbody
    have hstatus : r.status = .error := hfail hbody
    exact ⟨by simp [hstatus, hw], by simp [hstatus, hi], by simp [hstatus, hw, hi], by simp [hstatus], hread⟩
  | some x =>
    obtain ⟨f, t⟩ := x
    obtain ⟨l, hl, hlay⟩ := readBody_layout.mp hbody
    have hw : wellFormed := ⟨by omega, by omega, by omega, by omega, f, l, t, hl, hlay⟩
    obtain ⟨hstatus, hout, -⟩ := hok f t hbody
    have hstatus : r.status = .ok := hstatus
    refine ⟨by simp [hstatus, hw], by simp [hstatus, hi], by simp [hstatus, hw], fun _ g l' t' hg hlay' => ?_, hread⟩
    -- the grammar is unambiguous, since the reader is a function
    have hsame := readBody_layout.mpr ⟨l', hg, hlay'⟩
    rw [hbody] at hsame
    cases hsame
    exact hout

end Multimaster
