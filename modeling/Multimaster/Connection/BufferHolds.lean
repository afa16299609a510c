import Multimaster.Connection.Buffer

/-! Each call on a `buffer` refines the operation on the plain queue. -/

namespace Multimaster

namespace Buffer

lemma after_append (b : Buffer) (l k : List BufferCall) : b.after (l ++ k) = (b.after l).bind (·.after k) :=
  List.foldlM_append

lemma after_cons (b : Buffer) (x : BufferCall) (l : List BufferCall) :
    b.after (x :: l) = (b.perform x).bind (·.after l) :=
  List.foldlM_cons

structure Holds (q : Bytes) (b : Buffer) : Prop where
  head_le : b.head ≤ b.data.length
  small : b.data.length ≤ maxSize
  live : b.data.drop b.head = q

namespace Holds

variable {q : Bytes} {b c : Buffer}

lemma length (h : b.Holds q) : b.head + q.length = b.data.length := by
  have := h.head_le
  rw [← h.live, List.length_drop]
  omega

lemma size (h : b.Holds q) : b.size = q.length := by
  have hl := h.length
  have hs := h.small
  unfold maxSize at hs
  unfold Buffer.size
  omega

lemma readable (h : b.Holds q) : b.readable = q := by
  rw [Buffer.readable, h.size, h.live, List.take_length]

lemma append {l : Bytes} (h : b.Holds q) (hc : b.append l = some c) :
    c.Holds (q ++ l) ∧ c.data.length = b.data.length + l.length := by
  unfold Buffer.append at hc
  split_ifs at hc with hsize
  cases hc
  have hle := h.head_le
  refine ⟨⟨?_, ?_, ?_⟩, List.length_append⟩
  · dsimp only
    rw [List.length_append]
    omega
  · dsimp only
    rw [List.length_append]
    omega
  · dsimp only
    rw [List.drop_append_of_le_length hle, h.live]

lemma resize {n : ℕ} {l : Bytes} (h : b.Holds q) (hn : b.head ≤ n) (hl : resize n b.data = some l) :
    Holds (q.take (n - b.head) ++ List.replicate (n - b.data.length) 0) { b with data := l } ∧ l.length = n := by
  unfold Multimaster.resize at hl
  split_ifs at hl with hsize
  cases hl
  have hlen : (b.data.take n ++ List.replicate (n - b.data.length) 0).length = n := by
    rw [List.length_append, List.length_take, List.length_replicate]
    omega
  refine ⟨⟨?_, ?_, ?_⟩, hlen⟩
  · dsimp only
    omega
  · dsimp only
    omega
  · dsimp only
    have hle := h.head_le
    rw [List.drop_append_of_le_length (by rw [List.length_take]; omega), List.drop_take, h.live]

lemma reserveTail {n : ℕ} (h : b.Holds q) (hn : b.data.length + n < 2 ^ 64) (hc : b.reserveTail n = some c) :
    c.Holds (q ++ List.replicate n 0) ∧ c.data.length = b.data.length + n := by
  unfold Buffer.reserveTail at hc
  rw [Nat.mod_eq_of_lt hn] at hc
  obtain ⟨l, hl, rfl⟩ := Option.map_eq_some_iff.mp hc
  have hlen := h.length
  obtain ⟨hh, hl'⟩ := h.resize (by omega) hl
  rw [List.take_of_length_le (by omega), Nat.add_sub_cancel_left] at hh
  exact ⟨hh, hl'⟩

lemma fill {r l : Bytes} (h : b.Holds (q ++ r)) (hl : l.length ≤ r.length) :
    ∃ c, b.fill r.length l = some c ∧ c.Holds (q ++ (l ++ r.drop l.length)) ∧ c.data.length = b.data.length := by
  have hlen := h.length
  have hle := h.head_le
  rw [List.length_append] at hlen
  obtain ⟨pre, hpre⟩ : ∃ pre, b.data = pre ++ (q ++ r) := ⟨b.data.take b.head, by rw [← h.live, List.take_append_drop]⟩
  have hp : pre.length = b.head := by
    have := congrArg List.length hpre
    simp only [List.length_append] at this
    omega
  have htail : b.data.length - r.length = (pre ++ q).length := by
    rw [List.length_append]
    omega
  have hdata : b.data.take (b.data.length - r.length) ++
      (l ++ b.data.drop (b.data.length - r.length + l.length)) = pre ++ (q ++ (l ++ r.drop l.length)) := by
    rw [htail, hpre, ← List.append_assoc pre q r, List.take_left, ← List.drop_drop, List.drop_left, List.append_assoc]
  refine ⟨{ b with data := pre ++ (q ++ (l ++ r.drop l.length)) }, ?_, ⟨?_, ?_, ?_⟩, ?_⟩
  · unfold Buffer.fill
    rw [if_neg (by omega)]
    dsimp only
    rw [hdata]
  · dsimp only
    simp only [List.length_append]
    omega
  · dsimp only
    have := h.small
    simp only [List.length_append, List.length_drop]
    omega
  · dsimp only
    rw [← hp, List.drop_left]
  · dsimp only
    simp only [List.length_append, List.length_drop]
    omega

lemma uncommit {m : ℕ} (h : b.Holds q) (hm : m ≤ q.length) :
    ∃ c, b.uncommit m = some c ∧ c.Holds (q.take (q.length - m)) ∧ c.data.length ≤ b.data.length := by
  have hlen := h.length
  have hs := h.small
  have hn : (b.data.length + 2 ^ 64 - m) % 2 ^ 64 = b.data.length - m := by
    unfold maxSize at hs
    omega
  have hr := resize_of_le (l := b.data) (show b.data.length - m ≤ b.data.length by omega) (by omega)
  obtain ⟨hh, hl⟩ := h.resize (by omega) hr
  have h₀ : b.data.length - m - b.data.length = 0 := by omega
  have h₁ : b.data.length - m - b.head = q.length - m := by omega
  rw [h₀, h₁, List.replicate_zero, List.append_nil] at hh
  refine ⟨{ b with data := b.data.take (b.data.length - m) }, ?_, hh, ?_⟩
  · unfold Buffer.uncommit
    rw [hn, hr]
    rfl
  · dsimp only
    omega

lemma compact (h : b.Holds q) (hc : c = { b with data := memmove 0 b.head b.size b.data }) :
    Multimaster.resize c.size c.data = some q := by
  have hlen := h.length
  have hs := h.small
  have hm : memmove 0 b.head b.size b.data = q ++ b.data.drop q.length := by
    rw [memmove, h.size, h.live, List.take_length, List.take_zero, List.nil_append, Nat.zero_add]
  have hkept : (memmove 0 b.head b.size b.data).length = b.data.length := by
    rw [h.size]
    exact memmove_length (by omega) (by omega)
  have hsize : c.size = q.length := by
    rw [← h.size, hc, Buffer.size]
    dsimp only
    rw [hkept, Buffer.size]
  rw [hsize, hc]
  dsimp only
  rw [hm, resize_of_le (by simp) (by omega), List.take_left]

section Consume

variable {k : ℕ} (h : b.Holds q) (hk : k ≤ q.length)

include h hk

lemma advance : Holds (q.drop k) { b with head := b.head + k } := by
  have hlen := h.length
  refine ⟨?_, h.small, ?_⟩
  · dsimp only
    omega
  · dsimp only
    rw [← List.drop_drop, h.live]

-- neither the cursor nor its double wraps around
lemma cursor : (b.head + k) % 2 ^ 64 = b.head + k ∧ (b.head + k) * 2 % 2 ^ 64 = (b.head + k) * 2 := by
  have hlen := h.length
  have hs := h.small
  unfold maxSize at hs
  omega

lemma consume_compacts (hmore : k ≠ q.length) (hfar : 4096 < b.head + k)
    (hhalf : b.data.length < (b.head + k) * 2) : b.consume k = some ⟨q.drop k, 0⟩ := by
  have hlen := h.length
  unfold Buffer.consume
  rw [(h.cursor hk).1]
  dsimp only
  rw [if_neg (by omega), (h.cursor hk).2, if_pos ⟨hfar, hhalf⟩, (h.advance hk).compact rfl]
  rfl

lemma consume : ∃ c, b.consume k = some c ∧ c.Holds (q.drop k) ∧ c.data.length ≤ b.data.length := by
  have hlen := h.length
  have hs := h.small
  by_cases hfar : k ≠ q.length ∧ 4096 < b.head + k ∧ b.data.length < (b.head + k) * 2
  · have hdrop : (q.drop k).length ≤ b.data.length := by
      rw [List.length_drop]
      omega
    exact ⟨_, h.consume_compacts hk hfar.1 hfar.2.1 hfar.2.2, ⟨Nat.zero_le _, hdrop.trans hs, rfl⟩, hdrop⟩
  · unfold Buffer.consume
    rw [(h.cursor hk).1]
    dsimp only
    rw [(h.cursor hk).2]
    split_ifs with hall hsteps
    · have hq : q.drop k = [] := List.drop_eq_nil_of_le (by omega)
      rw [hq]
      exact ⟨_, rfl, ⟨Nat.le_refl 0, Nat.zero_le _, rfl⟩, Nat.zero_le _⟩
    · exact absurd ⟨by omega, hsteps⟩ hfar
    · exact ⟨_, rfl, h.advance hk, Nat.le_refl _⟩

end Consume

lemma receive {n m : ℕ} {l : Bytes} (h : b.Holds q) (hl : l.length ≤ n) (hm : m ≤ n)
    (hn : b.data.length + n < 2 ^ 64) {t : Buffer} (ht : b.reserveTail n = some t) :
    ∃ f c, t.fill n l = some f ∧ f.uncommit m = some c ∧ t.head ≤ t.data.length ∧ f.head ≤ f.data.length ∧
      c.Holds (q ++ (l ++ List.replicate (n - l.length) 0).take (n - m)) ∧ c.data.length ≤ b.data.length + n := by
  obtain ⟨hth, htl⟩ := h.reserveTail hn ht
  have hzero : (List.replicate n (0 : UInt8)).length = n := List.length_replicate
  obtain ⟨f, hf, hfh, hfl⟩ := hth.fill (l := l) (by rw [hzero]; exact hl)
  rw [hzero] at hf
  rw [List.drop_replicate] at hfh
  have hlen : (q ++ (l ++ List.replicate (n - l.length) (0 : UInt8))).length = q.length + n := by
    simp only [List.length_append, List.length_replicate]
    omega
  obtain ⟨c, hc, hch, hcl⟩ := hfh.uncommit (m := m) (by omega)
  rw [hlen, Nat.add_sub_assoc hm, List.take_length_add_append] at hch
  exact ⟨f, c, hf, hc, hth.head_le, hfh.head_le, hch, by omega⟩

end Holds

lemma reserveTail_isSome {n : ℕ} {b : Buffer} (h : b.data.length + n ≤ maxSize) : ∃ t, b.reserveTail n = some t := by
  have hn : (b.data.length + n) % 2 ^ 64 = b.data.length + n := by
    unfold maxSize at h
    exact Nat.mod_eq_of_lt (by omega)
  rw [reserveTail, hn, resize, if_neg (by omega)]
  exact ⟨_, rfl⟩

lemma reserveTail_fits {n : ℕ} {l : Bytes} {b t f : Buffer} (hb : b.data.length ≤ maxSize)
    (ht : b.reserveTail n = some t)
    (hf : t.fill n l = some f) : b.data.length + n < 2 ^ 64 := by
  obtain ⟨d, hd, rfl⟩ := Option.map_eq_some_iff.mp ht
  unfold resize at hd
  split_ifs at hd with hmax
  cases hd
  unfold fill at hf
  split_ifs at hf with hn
  dsimp only at hn
  rw [List.length_append, List.length_take, List.length_replicate] at hn
  unfold maxSize at hb
  omega

end Buffer

end Multimaster
