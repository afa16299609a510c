import Multimaster.Connection.BufferHolds

/-! Whole sequences of uses of a `buffer`. -/

namespace Multimaster

namespace BufferUse

variable {q : Bytes} {b c : Buffer} {u : BufferUse}

lemma completes (h : b.Holds q) (ha : u.Allowed b) (hc : b.after u.calls = some c) :
    c.Holds (u.onList q) ∧ c.data.length ≤ b.data.length + u.growth ∧
      ∀ k, ∃ d, b.after (u.calls.take k) = some d ∧ d.head ≤ d.data.length := by
  -- a use of one call passes no state but its first and its last
  have single {x : BufferCall} (hx : u.calls = [x]) (hh : c.Holds (u.onList q)) (k : ℕ) :
      ∃ d, b.after (u.calls.take k) = some d ∧ d.head ≤ d.data.length := by
    rw [hx] at hc ⊢
    cases k with
    | zero => exact ⟨b, rfl, h.head_le⟩
    | succ k =>
      rw [List.take_succ_cons, List.take_nil]
      exact ⟨c, hc, hh.head_le⟩
  have only {x : BufferCall} (hx : u.calls = [x]) : b.perform x = some c := by
    rw [hx, Buffer.after_cons] at hc
    obtain ⟨d, hd, hdc⟩ := Option.bind_eq_some_iff.mp hc
    cases hdc
    exact hd
  cases u with
  | append l =>
    obtain ⟨hh, hl⟩ := h.append (only rfl)
    exact ⟨hh, hl.le, single rfl hh⟩
  | consume n =>
    have hk : n ≤ b.size := ha
    rw [h.size] at hk
    obtain ⟨d, hd, hh, hl⟩ := h.consume hk
    obtain rfl : d = c := Option.some.inj (hd.symm.trans (only rfl))
    exact ⟨hh, hl, single rfl hh⟩
  | clear =>
    obtain rfl : b.clear = c := Option.some.inj (only rfl)
    have hh : b.clear.Holds [] := ⟨Nat.le_refl 0, Nat.zero_le _, rfl⟩
    exact ⟨hh, Nat.zero_le _, single rfl hh⟩
  | receive n l m =>
    obtain ⟨hl, hm⟩ := ha
    have hall := hc
    simp only [calls, Buffer.after_cons, Buffer.perform] at hc
    obtain ⟨t, ht, hc⟩ := Option.bind_eq_some_iff.mp hc
    obtain ⟨f, hf, hc⟩ := Option.bind_eq_some_iff.mp hc
    obtain ⟨d', hd', hc⟩ := Option.bind_eq_some_iff.mp hc
    obtain rfl : d' = c := Option.some.inj hc
    have hn := Buffer.reserveTail_fits h.small ht hf
    obtain ⟨f', d, hf', hd, hth, hfh, hh, hlen⟩ := h.receive hl hm hn ht
    obtain rfl : f = f' := Option.some.inj (hf.symm.trans hf')
    obtain rfl : d = d' := Option.some.inj (hd.symm.trans hd')
    refine ⟨hh, hlen, fun k => ?_⟩
    rcases k with _ | _ | _ | k
    · exact ⟨b, rfl, h.head_le⟩
    · exact ⟨t, by simp [calls, Buffer.after, Buffer.perform, ht], hth⟩
    · exact ⟨f, by simp [calls, Buffer.after, Buffer.perform, ht, hf], hfh⟩
    · rw [List.take_of_length_le (by simp [calls])]
      exact ⟨d, hall, hh.head_le⟩

lemma completes_of_growth (h : b.Holds q) (ha : u.Allowed b) (hg : b.data.length + u.growth ≤ maxSize) :
    ∃ c, b.after u.calls = some c := by
  cases u with
  | append l =>
    have hl : b.append l = some { b with data := b.data ++ l } := if_neg (Nat.not_lt.mpr hg)
    exact ⟨{ b with data := b.data ++ l }, by simp [calls, Buffer.after, Buffer.perform, hl]⟩
  | consume n =>
    have hk : n ≤ b.size := ha
    rw [h.size] at hk
    obtain ⟨c, hc, -⟩ := h.consume hk
    exact ⟨c, by simp [calls, Buffer.after, Buffer.perform, hc]⟩
  | clear => exact ⟨_, rfl⟩
  | receive n l m =>
    have hg : b.data.length + n ≤ maxSize := hg
    obtain ⟨t, ht⟩ := Buffer.reserveTail_isSome hg
    unfold maxSize at hg
    obtain ⟨f, c, hf, hc, -⟩ := h.receive ha.1 ha.2 (by omega) ht
    refine ⟨c, ?_⟩
    rw [calls, Buffer.after_cons, Buffer.perform, ht, Option.bind_some, Buffer.after_cons, Buffer.perform, hf,
      Option.bind_some, Buffer.after_cons, Buffer.perform, hc]
    rfl

lemma run_completes {us : List BufferUse} (h : b.Holds q) (hl : Legal b us)
    (hc : b.after (us.flatMap calls) = some c) : c.Holds (us.foldl onList q) ∧
      ∀ k, ∃ d, b.after ((us.flatMap calls).take k) = some d ∧ d.head ≤ d.data.length := by
  induction us generalizing q b with
  | nil =>
    obtain rfl : b = c := Option.some.inj hc
    exact ⟨h, fun k => ⟨b, by rw [List.flatMap_nil, List.take_nil]; rfl, h.head_le⟩⟩
  | cons u us ih =>
    rw [List.flatMap_cons] at hc ⊢
    rw [Buffer.after_append] at hc
    obtain ⟨d, hd, hc⟩ := Option.bind_eq_some_iff.mp hc
    obtain ⟨hh, -, hpass⟩ := completes h hl.1 hd
    obtain ⟨hfinal, hrest⟩ := ih hh (hl.2 d hd) hc
    refine ⟨hfinal, fun k => ?_⟩
    rw [List.take_append]
    -- the calls of `u` are still going on, or are over
    by_cases hk : k ≤ u.calls.length
    · rw [Nat.sub_eq_zero_of_le hk, List.take_zero, List.append_nil]
      exact hpass k
    · rw [List.take_of_length_le (by omega), Buffer.after_append, hd]
      exact hrest _

lemma run_completes_of_growth {us : List BufferUse} (h : b.Holds q) (hl : Legal b us)
    (hg : b.data.length + (us.map growth).sum ≤ maxSize) : ∃ c, b.after (us.flatMap calls) = some c := by
  induction us generalizing q b with
  | nil => exact ⟨b, rfl⟩
  | cons u us ih =>
    rw [List.map_cons, List.sum_cons] at hg
    obtain ⟨d, hd⟩ := completes_of_growth h hl.1 (by omega)
    obtain ⟨hh, hlen, -⟩ := completes h hl.1 hd
    obtain ⟨c, hc⟩ := ih hh (hl.2 d hd) (by omega)
    exact ⟨c, by rw [List.flatMap_cons, Buffer.after_append, hd]; exact hc⟩

end BufferUse

lemma Buffer.empty_holds : ({} : Buffer).Holds [] := ⟨Nat.le_refl 0, Nat.zero_le _, rfl⟩

theorem buffer_fifo (us : List BufferUse) (hl : BufferUse.Legal {} us) :
    (∀ b, Buffer.after {} (us.flatMap BufferUse.calls) = some b →
      b.readable = us.foldl BufferUse.onList [] ∧ b.size = (us.foldl BufferUse.onList []).length ∧
      ∀ k, ∃ d, Buffer.after {} ((us.flatMap BufferUse.calls).take k) = some d ∧ d.head ≤ d.data.length) ∧
    ((us.map BufferUse.growth).sum ≤ maxSize → ∃ b, Buffer.after {} (us.flatMap BufferUse.calls) = some b) := by
  refine ⟨fun b hb => ?_, fun hg => ?_⟩
  · obtain ⟨hh, hpass⟩ := BufferUse.run_completes Buffer.empty_holds hl hb
    exact ⟨hh.readable, hh.size, hpass⟩
  · refine BufferUse.run_completes_of_growth Buffer.empty_holds hl ?_
    rw [List.length_nil, Nat.zero_add]
    exact hg

section Compaction

def compacted (l : Bytes) : List BufferUse := [.append l, .consume 4999, .receive 4 [1, 2, 3] 1, .append [4]]

variable {l : Bytes} (hl : l.length = 5000)

include hl

lemma compacted_append : Buffer.append l {} = some ⟨l, 0⟩ := by
  rw [Buffer.append, if_neg]
  · rfl
  · rw [List.length_nil, hl]
    unfold maxSize
    omega

lemma compacted_consume : Buffer.consume 4999 ⟨l, 0⟩ = some ⟨l.drop 4999, 0⟩ := by
  have hh : Buffer.Holds l ⟨l, 0⟩ := by
    refine ⟨Nat.zero_le _, ?_, rfl⟩
    rw [hl]
    unfold maxSize
    omega
  have hfar : 4096 < 0 + 4999 := by decide
  have hhalf : l.length < (0 + 4999) * 2 := by omega
  exact hh.consume_compacts (by omega) (by omega) hfar hhalf

lemma compacted_legal : BufferUse.Legal {} (compacted l) := by
  refine ⟨trivial, fun b hb => ?_⟩
  have hall : Buffer.after {} (BufferUse.append l).calls = Buffer.append l {} := bind_pure _
  rw [hall, compacted_append hl] at hb
  cases hb
  refine ⟨?_, fun _ _ => ⟨⟨by decide, by decide⟩, fun _ _ => ⟨trivial, fun _ _ => trivial⟩⟩⟩
  change 4999 ≤ (l.length + 2 ^ 64 - 0) % 2 ^ 64
  omega

lemma compacted_after : Buffer.after {} ((compacted l).flatMap BufferUse.calls) =
    Buffer.after ⟨l.drop 4999, 0⟩ [.reserveTail 4, .fill 4 [1, 2, 3], .uncommit 1, .append [4]] := by
  change Buffer.after {} (.append l :: .consume 4999 ::
    [.reserveTail 4, .fill 4 [1, 2, 3], .uncommit 1, .append [4]]) = _
  rw [Buffer.after_cons, Buffer.perform, compacted_append hl, Option.bind_some, Buffer.after_cons, Buffer.perform,
    compacted_consume hl, Option.bind_some]

end Compaction

theorem buffer_fifo_read :
    let us := compacted (List.replicate 5000 0)
    BufferUse.Legal {} us ∧ ∃ b, Buffer.after {} (us.flatMap BufferUse.calls) = some b ∧
      b.data = [0, 1, 2, 3, 4] ∧ b.head = 0 ∧ b.readable = us.foldl BufferUse.onList [] := by
  have hlen : (List.replicate 5000 (0 : UInt8)).length = 5000 := List.length_replicate
  have hl := compacted_legal hlen
  have hb : Buffer.after {} ((compacted (List.replicate 5000 0)).flatMap BufferUse.calls) =
      some ⟨[0, 1, 2, 3, 4], 0⟩ := by
    rw [compacted_after hlen, List.drop_replicate]
    decide +kernel
  exact ⟨hl, _, hb, rfl, rfl, ((buffer_fifo _ hl).1 _ hb).1⟩

section Reading

/-- What `do_read` does to `in_`: each turn of its loop reserves 64 KiB and gives back what `recv` did not fill. -/
def readUses : List RecvAnswer → List BufferUse
  | [] | .again :: _ | .eof :: _ | .error _ :: _ => [.receive 65536 [] 65536]
  | .interrupted :: as => .receive 65536 [] 65536 :: readUses as
  | .data l :: as => .receive 65536 l (65536 - l.length) :: readUses as

/-- `recv` reads no more than it was given room for. -/
def RecvAnswer.Fits : RecvAnswer → Prop
  | .data l => l.length ≤ 65536
  | _ => True

lemma readUses_onList {as : List RecvAnswer} (h : ∀ a ∈ as, a.Fits) (q : Bytes) :
    (readUses as).foldl BufferUse.onList q = q ++ (recvLoop as).1 := by
  have hnone (q : Bytes) : BufferUse.onList q (.receive 65536 [] 65536) = q := by
    rw [BufferUse.onList, Nat.sub_self, List.take_zero, List.append_nil]
  induction as generalizing q with
  | nil => exact (hnone q).trans (List.append_nil q).symm
  | cons a as ih =>
    have htail : ∀ x ∈ as, x.Fits := fun x hx => h x (List.mem_cons_of_mem a hx)
    cases a with
    | again => exact (hnone q).trans (List.append_nil q).symm
    | eof => exact (hnone q).trans (List.append_nil q).symm
    | error e => exact (hnone q).trans (List.append_nil q).symm
    | interrupted =>
      rw [readUses, List.foldl_cons, hnone]
      exact ih htail q
    | data l =>
      have hl : l.length ≤ 65536 := h (.data l) List.mem_cons_self
      have hread : BufferUse.onList q (.receive 65536 l (65536 - l.length)) = q ++ l := by
        rw [BufferUse.onList, Nat.sub_sub_self hl, List.take_left]
      rw [readUses, List.foldl_cons, hread, ih htail, recvLoop, List.append_assoc]

lemma readUses_legal {as : List RecvAnswer} (h : ∀ a ∈ as, a.Fits) (b : Buffer) : BufferUse.Legal b (readUses as) := by
  have hnone (b : Buffer) : BufferUse.Allowed b (.receive 65536 [] 65536) := ⟨Nat.zero_le _, Nat.le_refl _⟩
  induction as generalizing b with
  | nil => exact ⟨hnone b, fun _ _ => trivial⟩
  | cons a as ih =>
    have htail : ∀ x ∈ as, x.Fits := fun x hx => h x (List.mem_cons_of_mem a hx)
    cases a with
    | again => exact ⟨hnone b, fun _ _ => trivial⟩
    | eof => exact ⟨hnone b, fun _ _ => trivial⟩
    | error e => exact ⟨hnone b, fun _ _ => trivial⟩
    | interrupted => exact ⟨hnone b, fun c _ => ih htail c⟩
    | data l => exact ⟨⟨h (.data l) List.mem_cons_self, Nat.sub_le _ _⟩, fun c _ => ih htail c⟩

theorem doRead_buffer {as : List RecvAnswer} (hf : ∀ a ∈ as, a.Fits) {q : Bytes} {b c : Buffer} (h : b.Holds q)
    (hc : b.after ((readUses as).flatMap BufferUse.calls) = some c) : c.Holds (q ++ (recvLoop as).1) := by
  rw [← readUses_onList hf]
  exact (BufferUse.run_completes h (readUses_legal hf b) hc).1

end Reading

end Multimaster
