import Multimaster.Wire.RoundTrip

/-! What the frame decoder says about a buffer depends on no byte beyond the frame, nor on how many of
them have arrived; and the frames that a growing stream of bytes decodes to. -/

namespace Multimaster

def Reader.Extends {α : Type} (r : Reader α) : Prop :=
  ∀ l a t, r l = some (a, t) → ∀ u, r (l ++ u) = some (a, t ++ u)

namespace Reader.Extends

variable {α β : Type} {r : Reader α}

lemma pure (a : α) : Extends (Pure.pure a) := by
  intro l b t h u
  cases h
  rfl

lemma bind {k : α → Reader β} (hr : Extends r) (hk : ∀ a, Extends (k a)) : Extends (r >>= k) := by
  intro l b t h u
  obtain ⟨⟨a, m⟩, hm, hb⟩ := Option.bind_eq_some_iff.mp h
  exact Option.bind_eq_some_iff.mpr ⟨(a, m ++ u), hr l a m hm u, hk a m b t hb u⟩

lemma u8 : Extends Reader.u8 := by
  intro l a t h u
  cases l with
  | nil => cases h
  | cons b l =>
    cases h
    rfl

lemma take (n : ℕ) : Extends (Reader.take n) := by
  intro l a t h u
  unfold Reader.take at h ⊢
  split_ifs at h with hn
  cases h
  have hle : n ≤ l.length := Nat.le_of_not_lt hn
  rw [if_neg (by rw [List.length_append]; omega), List.take_append_of_le_length hle,
    List.drop_append_of_le_length hle]

lemma octets (n : ℕ) : Extends (Reader.octets n) := by
  intro l a t h u
  unfold Reader.octets at h ⊢
  split_ifs at h with hn
  cases h
  have hle : n ≤ l.length := Nat.le_of_not_lt hn
  rw [dif_neg (by rw [List.length_append]; omega)]
  simp only [List.take_append_of_le_length hle, List.drop_append_of_le_length hle]

lemma unsigned (w : ℕ) : Extends (Reader.unsigned w) := (take w).bind fun _ => pure _

lemma check (p : Prop) [Decidable p] : Extends (guard p : Reader Unit) := by
  intro l a t h u
  by_cases hp : p
  · rw [guard, if_pos hp] at h ⊢
    exact pure () l a t h u
  · rw [guard, if_neg hp] at h
    cases h

lemma str : Extends Reader.str := u8.bind fun n => take n.toNat

end Reader.Extends

variable {S : Suite} {M n : ℕ} {a b l : Bytes} {f : Frame S}

def lengthField (inp : Bytes) : ℕ := hostOrder (inp.take 4)

lemma lengthField_append (h : 4 ≤ a.length) (b : Bytes) : lengthField (a ++ b) = lengthField a := by
  rw [lengthField, lengthField, List.take_append_of_le_length h]

def frameBody (inp : Bytes) : Bytes := (inp.drop 4).take (lengthField inp)

lemma frameBody_append (h : 4 + lengthField a ≤ a.length) (b : Bytes) :
    frameBody (a ++ b) = frameBody a := by
  rw [frameBody, frameBody, lengthField_append (by omega), List.drop_append_of_le_length (by omega),
    List.take_append_of_le_length]
  rw [List.length_drop]
  omega

lemma tryDecodeFrame_eq (a : Bytes) (M : ℕ) : tryDecodeFrame (S := S) a M =
    if a.length < 4 then .needMore
    else if lengthField a < 1 then .error
    else if lengthField a > M then .error
    else if a.length < 4 + lengthField a then .needMore
    else match readBody (frameBody a) with
      | none => .error
      | some (f, _) => .ok f ((4 + lengthField a) % 2 ^ 32) := rfl

lemma tryDecodeFrame_eq_ok : tryDecodeFrame a M = .ok f n ↔
    1 ≤ lengthField a ∧ lengthField a ≤ M ∧ 4 + lengthField a ≤ a.length ∧
      (∃ r, readBody (frameBody a) = some (f, r)) ∧ n = (4 + lengthField a) % 2 ^ 32 := by
  rw [tryDecodeFrame_eq]
  cases hr : readBody (S := S) (frameBody a) <;> grind

lemma consumed_le (h : tryDecodeFrame a M = .ok f n) : n ≤ a.length := by
  obtain ⟨-, -, h₃, -, rfl⟩ := tryDecodeFrame_eq_ok.mp h
  exact (Nat.mod_le _ _).trans h₃

lemma consumed_pos (hM : M + 4 < 2 ^ 32) (h : tryDecodeFrame a M = .ok f n) : 0 < n ∧ n ≤ a.length := by
  obtain ⟨h₁, h₂, h₃, -, rfl⟩ := tryDecodeFrame_eq_ok.mp h
  rw [Nat.mod_eq_of_lt (by omega)]
  omega

lemma tryDecodeFrame_eq_error : tryDecodeFrame (S := S) a M = .error ↔
    4 ≤ a.length ∧ (lengthField a < 1 ∨ M < lengthField a ∨
      (4 + lengthField a ≤ a.length ∧ readBody (S := S) (frameBody a) = none)) := by
  rw [tryDecodeFrame_eq]
  cases hr : readBody (S := S) (frameBody a) <;> grind

lemma tryDecodeFrame_eq_needMore : tryDecodeFrame (S := S) a M = .needMore ↔
    a.length < 4 ∨ (1 ≤ lengthField a ∧ lengthField a ≤ M ∧ a.length < 4 + lengthField a) := by
  rw [tryDecodeFrame_eq]
  cases hr : readBody (S := S) (frameBody a) <;> grind

lemma tryDecodeFrame_ok_append (h : tryDecodeFrame a M = .ok f n) (b : Bytes) :
    tryDecodeFrame (a ++ b) M = .ok f n := by
  obtain ⟨h₁, h₂, h₃, hr, rfl⟩ := tryDecodeFrame_eq_ok.mp h
  have hl : lengthField (a ++ b) = lengthField a := lengthField_append (by omega) b
  rw [tryDecodeFrame_eq_ok, hl, frameBody_append h₃, List.length_append]
  exact ⟨h₁, h₂, by omega, hr, rfl⟩

lemma tryDecodeFrame_error_append (h : tryDecodeFrame (S := S) a M = .error) (b : Bytes) :
    tryDecodeFrame (S := S) (a ++ b) M = .error := by
  obtain ⟨h₄, h⟩ := tryDecodeFrame_eq_error.mp h
  rw [tryDecodeFrame_eq_error, lengthField_append h₄, List.length_append]
  rcases h with h | h | ⟨h, hr⟩
  · exact ⟨by omega, .inl h⟩
  · exact ⟨by omega, .inr (.inl h)⟩
  · exact ⟨by omega, .inr (.inr ⟨by omega, by rwa [frameBody_append h]⟩)⟩

lemma tryDecodeFrame_cut (h : tryDecodeFrame a M = .ok f n) (hl : l <+: a)
    (hn : l.length < 4 + lengthField a) : tryDecodeFrame (S := S) l M = .needMore := by
  obtain ⟨h₁, h₂, -, -, -⟩ := tryDecodeFrame_eq_ok.mp h
  obtain ⟨b, rfl⟩ := hl
  rw [tryDecodeFrame_eq_needMore]
  by_cases h₄ : l.length < 4
  · exact .inl h₄
  · rw [lengthField_append (by omega)] at h₁ h₂ hn
    exact .inr ⟨h₁, h₂, hn⟩

/-- The decoder with the limit `M` on `a`, when `b` arrives after it or when only a part of `a` has. -/
structure PrefixStable (S : Suite) (M : ℕ) (a b : Bytes) : Prop where
  ok : ∀ (f : Frame S) (n : ℕ), tryDecodeFrame a M = .ok f n →
    5 ≤ n ∧ n ≤ a.length ∧ tryDecodeFrame (a ++ b) M = .ok f n ∧
      ∀ l, l <+: a → l.length < n → tryDecodeFrame (S := S) l M = .needMore
  error : tryDecodeFrame (S := S) a M = .error → tryDecodeFrame (S := S) (a ++ b) M = .error

lemma prefixStable_of_unwrapped (h : lengthField a ≤ M → lengthField a + 4 < 2 ^ 32) (b : Bytes) :
    PrefixStable S M a b where
  ok f n hok := by
    obtain ⟨h₁, h₂, h₃, -, hn⟩ := tryDecodeFrame_eq_ok.mp hok
    have hw := h h₂
    rw [Nat.mod_eq_of_lt (by omega)] at hn
    refine ⟨by omega, by omega, tryDecodeFrame_ok_append hok b, fun l hl hlt => ?_⟩
    exact tryDecodeFrame_cut hok hl (by omega)
  error he := tryDecodeFrame_error_append he b

def paddedHeartbeat : Bytes := networkOrder 4 (2 ^ 32 - 4) ++ 3 :: List.replicate (2 ^ 32 - 5) 0

lemma tryDecodeFrame_paddedHeartbeat (h : 2 ^ 32 - 4 ≤ M) :
    tryDecodeFrame (S := S) paddedHeartbeat M = .ok .heartbeat 0 := by
  have hl : (3 :: List.replicate (2 ^ 32 - 5) (0 : UInt8)).length = 2 ^ 32 - 4 := by
    rw [List.length_cons, List.length_replicate]
    norm_num
  have hd := tryDecodeFrame_whole (S := S) [] hl (by norm_num) h (by norm_num)
  rw [List.append_nil] at hd
  rw [paddedHeartbeat, hd]
  rfl

theorem decoder_prefix_stable (S : Suite) (M : ℕ) :
    (∀ a b, lengthField a + 4 < 2 ^ 32 → PrefixStable S M a b) ∧
      ((∀ a b, PrefixStable S M a b) ↔ M + 4 < 2 ^ 32) := by
  refine ⟨fun a b h => prefixStable_of_unwrapped (fun _ => h) b, fun h => ?_, fun h a b => ?_⟩
  · by_contra hM
    have hd := tryDecodeFrame_paddedHeartbeat (S := S) (M := M) (by omega)
    have := ((h paddedHeartbeat []).ok _ _ hd).1
    omega
  · exact prefixStable_of_unwrapped (fun _ => by omega) b

theorem paddedHeartbeat_unstable :
    tryDecodeFrame paddedHeartbeat (2 ^ 32 - 1) = .ok (S := Suite.transparent) .heartbeat 0 ∧
      ¬PrefixStable Suite.transparent (2 ^ 32 - 1) paddedHeartbeat [] := by
  have hd := tryDecodeFrame_paddedHeartbeat (S := Suite.transparent) (M := 2 ^ 32 - 1) (by norm_num)
  refine ⟨hd, fun h => ?_⟩
  have := (h.ok _ _ hd).1
  omega

section Stream

variable {S : Suite}

inductive Decodes (M : ℕ) : Bytes → List (Frame S) → Bytes → Prop where
  | nil (l : Bytes) : Decodes M l [] l
  | cons {l r : Bytes} {f : Frame S} {n : ℕ} {fs : List (Frame S)} (h : tryDecodeFrame l M = .ok f n)
      (t : Decodes M (l.drop n) fs r) : Decodes M l (f :: fs) r

namespace Decodes

variable {M : ℕ} {l r : Bytes} {fs : List (Frame S)}

lemma snoc {f : Frame S} {n : ℕ} (h : Decodes M l fs r) (hf : tryDecodeFrame r M = .ok f n) :
    Decodes M l (fs ++ [f]) (r.drop n) := by
  induction h with
  | nil => exact .cons hf (.nil _)
  | cons h _ ih => exact .cons h (ih hf)

lemma append (h : Decodes M l fs r) (b : Bytes) : Decodes M (l ++ b) fs (r ++ b) := by
  induction h with
  | nil => exact .nil _
  | cons h _ ih =>
    refine .cons (tryDecodeFrame_ok_append h b) ?_
    rw [List.drop_append_of_le_length (consumed_le h)]
    exact ih

end Decodes

end Stream

end Multimaster
