import Multimaster.Wire.Scan

/-! The sticky reader and the one that stops at an overrun: they agree as long as there is none. -/

namespace Multimaster

variable {S : Suite}
open Scan

structure Agrees {α β : Type} (R : α → β → Prop) (m : Scan β) (r : Reader α) : Prop where
  ok : ∀ inp (s : Cursor) a t, s.p + s.remaining ≤ inp.length → s.bad = false → r (s.window inp) = some (a, t) →
    R a (m.run inp s).1 ∧ (m.run inp s).2.bad = false ∧ (m.run inp s).2.window inp = t
  fail : ∀ inp (s : Cursor), s.p + s.remaining ≤ inp.length → s.bad = false → r (s.window inp) = none →
    (m.run inp s).2.bad = true

namespace Agrees

variable {α β γ δ : Type} {R : α → β → Prop} {Q : γ → δ → Prop} {m : Scan β} {r : Reader α}

lemma pure {a : α} {b : β} (h : R a b) : Agrees R (Pure.pure b) (Pure.pure a) where
  ok inp s a' t hs hb hr := by
    obtain ⟨rfl, rfl⟩ := Recognizes.pure_iff.mp hr
    exact ⟨h, hb, rfl⟩
  fail inp s hs hb hr := by cases hr

lemma weaken {Q : α → β → Prop} (h : Agrees R m r) (hQ : ∀ a b, R a b → Q a b) : Agrees Q m r where
  ok inp s a t hs hb hr := by
    obtain ⟨hR, hrest⟩ := h.ok inp s a t hs hb hr
    exact ⟨hQ a _ hR, hrest⟩
  fail := h.fail

lemma bind {k : β → Scan δ} {q : α → Reader γ} (h : Agrees R m r) (hk : ∀ a b, R a b → Agrees Q (k b) (q a)) :
    Agrees Q (m >>= k) (r >>= q) where
  ok inp s c t hs hb hr := by
    obtain ⟨⟨a, w⟩, hw, hq⟩ := Option.bind_eq_some_iff.mp hr
    obtain ⟨hR, hb', hw'⟩ := h.ok inp s a w hs hb hw
    exact (hk a _ hR).ok inp _ c t ((m.follows inp s).bound.trans_le hs) hb' (by rw [hw']; exact hq)
  fail inp s hs hb hr := by
    cases hw : r (s.window inp) with
    | none => exact ((k _).follows inp _).sticky (h.fail inp s hs hb hw)
    | some x =>
      obtain ⟨a, w⟩ := x
      obtain ⟨hR, hb', hw'⟩ := h.ok inp s a w hs hb hw
      refine (hk a _ hR).fail inp _ ((m.follows inp s).bound.trans_le hs) hb' ?_
      change (r (s.window inp)).bind (fun x => q x.1 x.2) = none at hr
      rw [hw] at hr
      rw [hw']
      exact hr

lemma need {n : ℕ} {absent : β} {found : Bytes → Cursor → β} (hlen : ∀ w, r w = none ↔ w.length < n)
    (hr : ∀ inp (s : Cursor) a t, s.p + s.remaining ≤ inp.length → s.bad = false → r (s.window inp) = some (a, t) →
      R a (found inp s) ∧ t = (s.window inp).drop n) : Agrees R (Scan.need n absent found) r := by
  have hw {inp : Bytes} {s : Cursor} (hs : s.p + s.remaining ≤ inp.length) : (s.window inp).length = s.remaining := by
    rw [Cursor.window, List.length_take, List.length_drop]
    omega
  constructor
  · intro inp s a t hs hb h
    have hn : ¬s.remaining < n := by
      rw [← hw hs, ← hlen, h]
      simp
    obtain ⟨hR, rfl⟩ := hr inp s a t hs hb h
    simp only [Scan.need, if_neg hn]
    refine ⟨hR, hb, ?_⟩
    simp only [Cursor.window, Cursor.advance, List.drop_take, List.drop_drop]
  · intro inp s hs hb h
    have hn : s.remaining < n := by rwa [hlen, hw hs] at h
    simp only [Scan.need, if_pos hn]
    rfl

lemma bytesAt_val {inp : Bytes} {s : Cursor} {n : ℕ} (hs : s.p + s.remaining ≤ inp.length)
    (hn : n ≤ (s.window inp).length) : (bytesAt inp s.p n).val = (s.window inp).take n := by
  have hle : n ≤ s.remaining := hn.trans (List.length_take_le ..)
  rw [Cursor.window, List.take_take, Nat.min_eq_left hle]
  apply List.ext_getElem?
  intro i
  simp only [bytesAt, List.getElem?_ofFn, List.getElem?_take, List.getElem?_drop, List.getD_eq_getElem?_getD]
  split_ifs with hi
  · rw [List.getElem?_eq_getElem (by omega), Option.getD_some]
  · rfl

lemma octets {n : ℕ} (old : Octets n) : Agrees Eq (Scan.octets old) (Reader.octets n) := by
  refine need (fun w => ?_) fun inp s a t hs hb h => ?_
  · unfold Reader.octets
    split_ifs with hn <;> simp [hn]
  · unfold Reader.octets at h
    split_ifs at h with hn
    cases h
    exact ⟨Subtype.ext (bytesAt_val hs (Nat.le_of_not_lt hn)).symm, rfl⟩

lemma take (n : ℕ) : Agrees Eq (Scan.take n) (Reader.take n) := by
  refine need (fun w => ?_) fun inp s a t hs hb h => ?_
  · unfold Reader.take
    split_ifs with hn <;> simp [hn]
  · unfold Reader.take at h
    split_ifs at h with hn
    cases h
    exact ⟨(bytesAt_val hs (Nat.le_of_not_lt hn)).symm, rfl⟩

lemma block {S : Suite} {n : ℕ} (old : S.Block n) : Agrees Eq (Scan.block old) (Reader.block S n) := by
  have hblock (w : Bytes) : Reader.block S n w = (Reader.octets n w).map fun x => (S.ofBytes x.1, x.2) := by
    change (Reader.octets n w).bind (fun x => some (S.ofBytes x.1, x.2)) = _
    rw [Option.map_eq_bind]
    rfl
  refine need (fun w => ?_) fun inp s a t hs hb h => ?_
  · rw [hblock, Option.map_eq_none_iff]
    unfold Reader.octets
    split_ifs with hn <;> simp [hn]
  · rw [hblock, Option.map_eq_some_iff] at h
    obtain ⟨⟨x, u⟩, hx, h⟩ := h
    cases h
    unfold Reader.octets at hx
    split_ifs at hx with hn
    cases hx
    refine ⟨?_, rfl⟩
    rw [hb]
    exact congrArg S.ofBytes (Subtype.ext (bytesAt_val hs (Nat.le_of_not_lt hn)).symm)

lemma u8 : Agrees Eq Scan.u8 Reader.u8 := by
  refine need (fun w => ?_) fun inp s a t hs hb h => ?_
  · cases w <;> simp [Reader.u8]
  · cases hw : s.window inp with
    | nil =>
      rw [hw] at h
      cases h
    | cons b w =>
      rw [hw] at h
      cases h
      have hval := bytesAt_val (n := 1) hs (by rw [hw]; simp)
      rw [hw] at hval
      refine ⟨?_, rfl⟩
      simpa [bytesAt] using hval.symm

lemma returning {g : α → γ} {Q : γ → β → Prop} (h : Agrees R m r) (hg : ∀ a b, R a b → Q (g a) b) :
    Agrees Q m (r >>= fun a => Pure.pure (g a)) where
  ok inp s c t hs hb hr := by
    obtain ⟨⟨a, w⟩, hw, hc⟩ := Option.bind_eq_some_iff.mp hr
    cases hc
    obtain ⟨hR, hrest⟩ := h.ok inp s a t hs hb hw
    exact ⟨hg a _ hR, hrest⟩
  fail inp s hs hb hr := by
    refine h.fail inp s hs hb ?_
    rw [Option.eq_none_iff_forall_ne_some]
    intro x hx
    change (r (s.window inp)).bind (fun x => some (g x.1, x.2)) = none at hr
    rw [hx] at hr
    cases hr

lemma storing {g : β → δ} {Q : α → δ → Prop} (h : Agrees R m r) (hg : ∀ a b, R a b → Q a (g b)) :
    Agrees Q (m >>= fun b => Pure.pure (g b)) r where
  ok inp s a t hs hb hr := by
    obtain ⟨hR, hrest⟩ := h.ok inp s a t hs hb hr
    exact ⟨hg a _ hR, hrest⟩
  fail inp s hs hb hr := h.fail inp s hs hb hr

lemma hostOrder_cons (b : UInt8) (l : Bytes) : hostOrder (b :: l) = b.toNat * 256 ^ l.length + hostOrder l := by
  induction l using List.reverseRecOn with
  | nil => simp [hostOrder]
  | append_singleton l c ih =>
    rw [← List.cons_append, hostOrder_snoc, hostOrder_snoc, ih, List.length_append, List.length_singleton, pow_succ]
    ring

lemma unsigned_succ (w : ℕ) : Reader.unsigned (w + 1) =
    Reader.u8 >>= fun b => Reader.unsigned w >>= fun x => Pure.pure (b.toNat * 256 ^ w + x) := by
  funext l
  cases l with
  | nil => rfl
  | cons b l =>
    change (Reader.take (w + 1) (b :: l)).bind (fun x => some (hostOrder x.1, x.2)) =
      ((Reader.take w l).bind (fun x => some (hostOrder x.1, x.2))).bind
        (fun x => some (b.toNat * 256 ^ w + x.1, x.2))
    unfold Reader.take
    by_cases hl : l.length < w
    · rw [if_pos hl, if_pos (by simpa using hl)]
      rfl
    · rw [if_neg hl, if_neg (by simpa using hl)]
      have hlen : (l.take w).length = w := by
        rw [List.length_take]
        omega
      simp only [List.take_succ_cons, List.drop_succ_cons, Option.bind_some, hostOrder_cons, hlen]

lemma number (w v : ℕ) : Agrees (fun x y => y = v * 256 ^ w + x) (Scan.number w v) (Reader.unsigned w) := by
  induction w generalizing v with
  | zero =>
    have h : Reader.unsigned 0 = Pure.pure 0 := by
      funext l
      rfl
    rw [h]
    exact .pure (by simp)
  | succ w ih =>
    rw [unsigned_succ]
    refine u8.bind fun b _ hb => ?_
    subst hb
    refine (ih _).returning fun x y hy => ?_
    rw [hy]
    ring

lemma unsigned (w : ℕ) : Agrees Eq (Scan.number w 0) (Reader.unsigned w) := by
  have h : Agrees Eq (Scan.number w 0) (Reader.unsigned w >>= fun x => Pure.pure x) :=
    (number w 0).returning fun x y hy => by simpa using hy.symm
  rwa [bind_pure] at h

lemma ifOk {otherwise : β} {spoilt : Cursor → Cursor} {hf : ∀ s : Cursor, s.Follows (spoilt s)} (h : Agrees R m r) :
    Agrees R (Scan.ifOk otherwise spoilt hf m) r where
  ok inp s a t hs hb hr := by
    simp only [Scan.ifOk, hb]
    exact h.ok inp s a t hs hb hr
  fail inp s hs hb hr := by
    simp only [Scan.ifOk, hb]
    exact h.fail inp s hs hb hr

lemma str : Agrees Eq Scan.str Reader.str := by
  refine u8.bind fun n _ hn => ?_
  subst hn
  exact (take _).ifOk

lemma ids (n : ℕ) (l : List PeerId) : Agrees (fun x y => y = l ++ x) (Scan.ids n l) (Reader.ids n) := by
  induction n generalizing l with
  | zero => exact .pure (List.append_nil l).symm
  | succ n ih =>
    refine ifOk ((octets _).bind fun x _ hx => ?_)
    subst hx
    refine (ih _).returning fun xs ys hy => ?_
    rw [hy, List.append_assoc]
    rfl

lemma optional {c : Bool} {a₀ : α} {b₀ : β} {k : β → Scan δ} {q : α → Reader γ} (h : Agrees R m r)
    (hk : ∀ a b, (c = true → R a b) → (c = false → a = a₀ ∧ b = b₀) → Agrees Q (k b) (q a)) :
    Agrees Q (if c then m >>= k else Pure.pure b₀ >>= k) (if c then r >>= q else Pure.pure a₀ >>= q) := by
  cases c with
  | true => exact h.bind fun a b hR => hk a b (fun _ => hR) fun hc => by cases hc
  | false =>
    have hp : Agrees (fun a b => a = a₀ ∧ b = b₀) (Pure.pure b₀ : Scan β) (Pure.pure a₀) := .pure ⟨rfl, rfl⟩
    exact hp.bind fun a b hR => hk a b (fun hc => (by cases hc)) fun _ => hR

end Agrees

end Multimaster
