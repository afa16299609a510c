import Multimaster.Connection.Conversing
import Multimaster.Connection.Transparent
import Multimaster.Wire.Stability

/-! Any stream of bytes, cut into records, and what opens of it. -/

namespace Multimaster

variable {S : Suite}

section Cutting

inductive Cuts : Bytes → List Bytes → Bytes → Prop where
  | nil (l : Bytes) : Cuts l [] l
  | cons {l r : Bytes} {cts : List Bytes} (h : 4 + lengthField l ≤ l.length)
      (t : Cuts (l.drop (4 + lengthField l)) cts r) : Cuts l (frameBody l :: cts) r

def cutBodies : ℕ → Bytes → List Bytes
  | 0, _ => []
  | k + 1, l =>
    if 4 + lengthField l ≤ l.length then frameBody l :: cutBodies k (l.drop (4 + lengthField l)) else []

def bodies (l : Bytes) : List Bytes := cutBodies l.length l

namespace Cuts

variable {l r : Bytes} {cts : List Bytes}

lemma snoc (h : Cuts l cts r) (hr : 4 + lengthField r ≤ r.length) :
    Cuts l (cts ++ [frameBody r]) (r.drop (4 + lengthField r)) := by
  induction h with
  | nil => exact .cons hr (.nil _)
  | cons h _ ih => exact .cons h (ih hr)

lemma append (h : Cuts l cts r) (b : Bytes) : Cuts (l ++ b) cts (r ++ b) := by
  induction h with
  | nil => exact .nil _
  | @cons l r cts h _ ih =>
    have hl : lengthField (l ++ b) = lengthField l := lengthField_append (by omega) b
    rw [← frameBody_append h b]
    refine .cons ?_ ?_
    · rw [hl, List.length_append]
      omega
    · rw [hl, List.drop_append_of_le_length h]
      exact ih

lemma mem_cutBodies (h : Cuts l cts r) {k : ℕ} (hk : l.length ≤ k) {ct : Bytes} (hct : ct ∈ cts) :
    ct ∈ cutBodies k l := by
  induction h generalizing k with
  | nil => cases hct
  | @cons l r cts h _ ih =>
    cases k with
    | zero => omega
    | succ k =>
      rw [cutBodies, if_pos h]
      rcases List.mem_cons.mp hct with rfl | hct
      · exact List.mem_cons_self
      · refine List.mem_cons_of_mem _ (ih ?_ hct)
        rw [List.length_drop]
        omega

lemma mem_bodies (h : Cuts l cts r) {ct : Bytes} (hct : ct ∈ cts) : ct ∈ bodies l := h.mem_cutBodies le_rfl hct

end Cuts

end Cutting

section Opening

inductive Unseals (key : S.Block 32) : List Bytes → List Bytes → Prop where
  | nil : Unseals key [] []
  | snoc {cts pts : List Bytes} {ct pt : Bytes} (h : Unseals key cts pts)
      (ho : S.decrypt key (nonceFromCounter (UInt64.ofNat cts.length)) ct = some pt) :
      Unseals key (cts ++ [ct]) (pts ++ [pt])

def Sent.sealing : Sent S → Option (S.Block 32 × UInt64 × Bytes)
  | .plain _ => none
  | .record key ctr f => some (key, ctr, encode f)

def Unforged (key : S.Block 32) (stream : Bytes) (sent : List (Sent S)) : Prop :=
  ∀ ct ∈ bodies stream, ∀ (ctr : UInt64) (pt : Bytes), S.decrypt key (nonceFromCounter ctr) ct = some pt →
    (key, ctr, pt) ∈ sent.filterMap Sent.sealing

lemma mem_recordsFrom {key : S.Block 32} {k : ℕ} {fs : List (Frame S)} {x : Sent S}
    (h : x ∈ recordsFrom key k fs) : ∃ i f, fs[i]? = some f ∧ x = .record key (UInt64.ofNat (k + i)) f := by
  induction fs generalizing k with
  | nil => cases h
  | cons g fs ih =>
    rcases List.mem_cons.mp h with rfl | h
    · exact ⟨0, g, rfl, rfl⟩
    · obtain ⟨i, f, hf, rfl⟩ := ih h
      exact ⟨i + 1, f, hf, by rw [Nat.add_right_comm, Nat.add_assoc]⟩

lemma mem_sealing {key key' : S.Block 32} {ctr : UInt64} {pt : Bytes} {ps fs : List (Frame S)}
    (h : (key, ctr, pt) ∈ (ps.map Sent.plain ++ recordsFrom key' 0 fs).filterMap Sent.sealing) :
    ∃ f i, encode f = pt ∧ ctr = UInt64.ofNat i ∧ fs[i]? = some f := by
  obtain ⟨x, hx, hs⟩ := List.mem_filterMap.mp h
  rcases List.mem_append.mp hx with hx | hx
  · obtain ⟨g, -, rfl⟩ := List.mem_map.mp hx
    cases hs
  · obtain ⟨i, f, hf, rfl⟩ := mem_recordsFrom hx
    cases hs
    exact ⟨f, i, rfl, by rw [Nat.zero_add], hf⟩

lemma Unseals.sealed {key key' : S.Block 32} {cts pts : List Bytes} {ps fs : List (Frame S)}
    (h : Unseals key cts pts) (hfs : fs.length < 2 ^ 64)
    (hun : ∀ ct ∈ cts, ∀ (ctr : UInt64) (pt : Bytes), S.decrypt key (nonceFromCounter ctr) ct = some pt →
      (key, ctr, pt) ∈ (ps.map Sent.plain ++ recordsFrom key' 0 fs).filterMap Sent.sealing) :
    ∃ gs, gs <+: fs ∧ gs.length = cts.length ∧ pts.flatten = gs.flatMap encode := by
  induction h with
  | nil => exact ⟨[], List.nil_prefix, rfl, rfl⟩
  | @snoc cts pts ct pt h ho ih =>
    obtain ⟨gs, ⟨later, rfl⟩, hlen, hpts⟩ := ih fun ct hct => hun ct (List.mem_append_left _ hct)
    obtain ⟨f, i, rfl, hi, hfi⟩ := mem_sealing (hun ct (by simp) _ pt ho)
    -- below the wrap of the counter a number stands for one record
    have hi' : gs.length = i := by
      have hlt : i < (gs ++ later).length := (List.getElem?_eq_some_iff.mp hfi).1
      have hgs : gs.length ≤ (gs ++ later).length := by simp
      have hnum := congrArg UInt64.toNat hi
      rw [UInt64.toNat_ofNat', UInt64.toNat_ofNat', Nat.mod_eq_of_lt (by omega), Nat.mod_eq_of_lt (by omega)] at hnum
      omega
    subst hi'
    rw [List.getElem?_append_right le_rfl, Nat.sub_self] at hfi
    cases later with
    | nil => cases hfi
    | cons g later =>
      cases hfi
      refine ⟨gs ++ [f], ⟨later, by simp⟩, by simp [hlen], ?_⟩
      rw [List.flatten_append, hpts, List.flatMap_append]
      simp

lemma Decodes.same {M : ℕ} (hS : S.Lawful) (hM : M + 100 ≤ 2 ^ 32) {l r : Bytes} {fs gs : List (Frame S)}
    (h : Decodes M l fs r) (hl : l = gs.flatMap encode) (hgs : ∀ g ∈ gs, g.Clear M) : fs <+: gs := by
  induction h generalizing gs with
  | nil => exact List.nil_prefix
  | @cons l r f n fs h t ih =>
    subst hl
    cases gs with
    | nil => cases h
    | cons g gs =>
      rw [List.flatMap_cons] at h
      rcases decode_along hS hM (hgs g List.mem_cons_self) List.prefix_rfl with ⟨-, hg⟩ | hg
      · cases hg.symm.trans h
        refine List.cons_prefix_cons.mpr ⟨rfl, ih ?_ fun g hg => hgs g (List.mem_cons_of_mem _ hg)⟩
        rw [List.flatMap_cons, List.drop_left]
      · cases hg.symm.trans h

end Opening

end Multimaster
