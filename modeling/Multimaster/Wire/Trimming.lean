import Multimaster.Wire.RoundTrip

/-! Strings and lists longer than their counters are cut by the encoders, not refused. -/

namespace Multimaster

variable {S : Suite}

def Hello.trimmed (h : Hello S) : Hello S :=
  { h with groupName := h.groupName.take 255, nodeName := h.nodeName.take 255 }

def MembershipRecord.trimmed (m : MembershipRecord) : MembershipRecord :=
  { m with neighbors := m.neighbors.take 65535 }

def IdentityRecord.trimmed (r : IdentityRecord S) : IdentityRecord S := { r with name := r.name.take 255 }

def Frame.trimmed : Frame S → Frame S
  | .hello ack h => .hello ack h.trimmed
  | .membership m => .membership m.trimmed
  | .identity r => .identity r.trimmed
  | f => f

def Announce.trimmed (a : Announce) : Announce := { a with groupName := a.groupName.take 255 }

lemma putStr_take (s : Bytes) : putStr (s.take 255) = putStr s := by
  simp [putStr, List.take_take, Nat.min_comm]

lemma putStr_length_le (s : Bytes) : (putStr s).length ≤ 256 := by
  simp only [putStr, List.length_append, networkOrder_length, List.length_take]
  omega

lemma putBlock_length {n : ℕ} (b : S.Block n) : (putBlock b).length = n := (S.bytes b).property

namespace Frame

lemma encodeBody_trimmed (f : Frame S) : encodeBody f.trimmed = encodeBody f := by
  cases f with
  | hello ack h => simp only [trimmed, Hello.trimmed, encodeBody, encodeHelloBody, putStr_take]
  | membership m => simp [trimmed, MembershipRecord.trimmed, encodeBody, encodeMembershipBody, List.take_take,
      Nat.min_comm]
  | identity r => simp only [trimmed, IdentityRecord.trimmed, encodeBody, encodeIdentityBody, putStr_take]
  | heartbeat | data _ | goodbye | authConfirm _ _ => rfl

lemma trimmed_fits (f : Frame S) : f.trimmed.Fits := by
  cases f with
  | hello ack h => exact ⟨List.length_take_le .., List.length_take_le ..⟩
  | membership m => exact List.length_take_le ..
  | identity r => exact List.length_take_le ..
  | heartbeat | data _ | goodbye | authConfirm _ _ => trivial

lemma trimmed_size (f : Frame S) : f.trimmed.size = f.size := congrArg List.length f.encodeBody_trimmed

lemma encode_trimmed (f : Frame S) : encode f.trimmed = encode f := congrArg patchLength f.encodeBody_trimmed

lemma size_hello_le (ack : Bool) (h : Hello S) : (Frame.hello ack h).size ≤ 640 := by
  have hg := putStr_length_le h.groupName
  have hn := putStr_length_le h.nodeName
  have hid : (if h.hasIdentity then putBlock h.idPubKey ++ putStr h.nodeName else []).length ≤ 288 := by
    split_ifs
    · rw [List.length_append, putBlock_length]
      omega
    · exact Nat.zero_le _
  have hsec : (if h.secure then putBlock h.ephPubKey else []).length ≤ 32 := by
    split_ifs
    · rw [putBlock_length]
    · exact Nat.zero_le _
  have hlen := h.nodeId.property
  simp only [size, encodeBody, encodeHelloBody, List.length_append, List.length_cons, List.length_nil,
    networkOrder_length, hlen]
  omega

lemma size_authConfirm_le (tag : S.Block 32) (sig : Option (S.Block 64)) :
    (Frame.authConfirm tag sig).size ≤ 98 := by
  cases sig <;> simp [size, encodeBody, encodeAuthConfirmBody, putBlock_length]

lemma size_identity_le (r : IdentityRecord S) : (Frame.identity r).size ≤ 361 := by
  have hn := putStr_length_le r.name
  simp only [size, encodeBody, encodeIdentityBody, List.length_append, putBlock_length, networkOrder_length,
    List.length_cons, List.length_nil]
  omega

/-- What a node of limit `M` decodes of the frame, if anything. -/
def carried (M : ℕ) (f : Frame S) : Option (Frame S) :=
  match tryDecodeFrame (encode f) M with
  | .ok g _ => some g
  | _ => none

def relayed (Ms : List ℕ) (f : Frame S) : Option (Frame S) := Ms.foldlM (fun g M => g.carried M) f

end Frame

lemma tryDecodeFrame_oversized {f : Frame S} {M : ℕ} (t : Bytes) (hM : M < f.size) (hl : f.size < 2 ^ 32) :
    tryDecodeFrame (S := S) (encode f ++ t) M = .error := by
  have hlen : hostOrder ((encode f ++ t).take 4) = f.size := by
    rw [encode, patchLength, List.append_assoc, List.take_left' (networkOrder_length 4 _)]
    exact hostOrder_networkOrder (by simpa [Frame.size] using hl)
  have hpos := f.size_pos
  have hin : ¬(encode f ++ t).length < 4 := by
    rw [List.length_append, encode_length]
    omega
  rw [tryDecodeFrame, if_neg hin]
  simp only [hlen]
  rw [if_neg (by omega), if_pos hM]

section Carried

variable (hS : ∀ {n : ℕ} (b : S.Block n), S.ofBytes (S.bytes b) = b)
include hS

lemma tryDecodeFrame_trimmed {f : Frame S} {M : ℕ} (t : Bytes) (hM : f.size ≤ M) (hl : f.size < 2 ^ 32) :
    tryDecodeFrame (encode f ++ t) M = .ok f.trimmed.received ((4 + f.size) % 2 ^ 32) := by
  rw [← f.encode_trimmed, ← f.trimmed_size]
  rw [← f.trimmed_size] at hM hl
  exact tryDecodeFrame_encode hS t f.trimmed_fits hM hl

lemma Frame.carried_eq {f : Frame S} (M : ℕ) (hl : f.size < 2 ^ 32) :
    f.carried M = if f.size ≤ M then some f.trimmed.received else none := by
  unfold carried
  rw [← List.append_nil (encode f)]
  split_ifs with hM
  · rw [tryDecodeFrame_trimmed hS [] hM hl]
  · rw [tryDecodeFrame_oversized [] (Nat.lt_of_not_le hM) hl]

lemma Frame.relayed_identity (r : IdentityRecord S) {Ms : List ℕ} (hne : Ms ≠ []) :
    (Frame.identity r).relayed Ms =
      if ∀ M ∈ Ms, (Frame.identity r).size ≤ M then some (.identity r.trimmed) else none := by
  induction Ms generalizing r with
  | nil => exact absurd rfl hne
  | cons M Ms ih =>
    have hc := carried_eq hS M (Nat.lt_of_le_of_lt (size_identity_le r) (by norm_num))
    have hfold : (Frame.identity r).relayed (M :: Ms) = ((Frame.identity r).carried M).bind (·.relayed Ms) := rfl
    rw [hfold, hc]
    by_cases hM : (Frame.identity r).size ≤ M
    · rw [if_pos hM]
      change (Frame.identity r.trimmed).relayed Ms = _
      by_cases hMs : Ms = []
      · subst hMs
        simp [relayed, hM]
      · have hsize : (Frame.identity r.trimmed).size = (Frame.identity r).size :=
          trimmed_size (.identity r)
        rw [ih _ hMs, hsize]
        simp [hM, IdentityRecord.trimmed, List.take_take]
    · rw [if_neg hM, if_neg fun h => hM (h M List.mem_cons_self)]
      rfl

end Carried

lemma decodeAnnounce_trimmed (a : Announce) (t : Bytes) : decodeAnnounce (encodeAnnounce a ++ t) = some a.trimmed := by
  have h : encodeAnnounce a.trimmed = encodeAnnounce a := by simp only [Announce.trimmed, encodeAnnounce, putStr_take]
  rw [← h]
  exact decodeAnnounce_encode t (List.length_take_le ..)

end Multimaster
