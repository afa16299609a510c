import Mathlib.Data.List.DropRight
import Multimaster.Basis.Bytes

/-! Byte strings spelled out in hexadecimal digits of either case. -/

namespace Multimaster

def lowerHex : Bytes :=
  ['0', '1', '2', '3', '4', '5', '6', '7', '8', '9', 'a', 'b', 'c', 'd', 'e', 'f'].map Char.toUInt8

def upperHex : Bytes :=
  ['0', '1', '2', '3', '4', '5', '6', '7', '8', '9', 'A', 'B', 'C', 'D', 'E', 'F'].map Char.toUInt8

def HexDigit (c : UInt8) (v : ℕ) : Prop := lowerHex[v]? = some c ∨ upperHex[v]? = some c

def IsHexDigit (c : UInt8) : Prop := ∃ v, HexDigit c v

inductive Spells : Bytes → Bytes → Prop where
  | nil : Spells [] []
  | cons {c d : UInt8} {hi lo : ℕ} {s l : Bytes} (hc : HexDigit c hi) (hd : HexDigit d lo) (h : Spells s l) :
      Spells (c :: d :: s) (UInt8.ofNat (16 * hi + lo) :: l)

lemma HexDigit.lt {c : UInt8} {v : ℕ} (h : HexDigit c v) : v < 16 := by
  rcases h with h | h
  · exact (List.getElem?_eq_some_iff.mp h).1
  · exact (List.getElem?_eq_some_iff.mp h).1

lemma HexDigit.of_lower {v : ℕ} (h : v < 16) : HexDigit (lowerHex.getD v 0) v := by
  have hl : v < lowerHex.length := h
  left
  rw [List.getD_eq_getElem?_getD, List.getElem?_eq_getElem hl]
  rfl

namespace Spells

variable {s l : Bytes}

lemma length (h : Spells s l) : s.length = 2 * l.length := by
  induction h with
  | nil => rfl
  | cons _ _ _ ih =>
    rw [List.length_cons, List.length_cons, List.length_cons, ih]
    omega

lemma digits (h : Spells s l) : ∀ c ∈ s, IsHexDigit c := by
  induction h with
  | nil => simp
  | cons hc hd _ ih => simpa using ⟨⟨_, hc⟩, ⟨_, hd⟩, ih⟩

end Spells

lemma exists_spells {n : ℕ} {s : Bytes} (hs : s.length = 2 * n) (h : ∀ c ∈ s, IsHexDigit c) : ∃ l, Spells s l := by
  induction n generalizing s with
  | zero =>
    obtain rfl := List.eq_nil_of_length_eq_zero hs
    exact ⟨[], .nil⟩
  | succ n ih =>
    obtain ⟨c, d, t, rfl⟩ : ∃ c d t, s = c :: d :: t := by
      rcases s with _ | ⟨c, _ | ⟨d, t⟩⟩
      · simp at hs
      · simp at hs
        omega
      · exact ⟨c, d, t, rfl⟩
    obtain ⟨hi, hc⟩ := h c (by simp)
    obtain ⟨lo, hd⟩ := h d (by simp)
    have ht : t.length = 2 * n := by
      simp only [List.length_cons] at hs
      omega
    obtain ⟨l, hl⟩ := ih ht fun x hx => h x (by simp [hx])
    exact ⟨_, .cons hc hd hl⟩

lemma exists_spells_iff {n : ℕ} {s : Bytes} :
    (∃ l, l.length = n ∧ Spells s l) ↔ s.length = 2 * n ∧ ∀ c ∈ s, IsHexDigit c := by
  constructor
  · rintro ⟨l, rfl, h⟩
    exact ⟨h.length, h.digits⟩
  · rintro ⟨hs, h⟩
    obtain ⟨l, hl⟩ := exists_spells hs h
    have := hl.length
    exact ⟨l, by omega, hl⟩

section Halves

def ofHalves : List ℕ → Bytes
  | [] => []
  | [hi] => [UInt8.ofNat (16 * hi)]
  | hi :: lo :: vs => UInt8.ofNat (16 * hi + lo) :: ofHalves vs

lemma Spells.halves {s l : Bytes} (h : Spells s l) : ∃ vs, List.Forall₂ HexDigit s vs ∧ ofHalves vs = l := by
  induction h with
  | nil => exact ⟨[], .nil, rfl⟩
  | cons hc hd _ ih =>
    obtain ⟨vs, hvs, rfl⟩ := ih
    exact ⟨_ :: _ :: vs, .cons hc (.cons hd hvs), rfl⟩

lemma spells_ofHalves {n : ℕ} {s : Bytes} {vs : List ℕ} (h : List.Forall₂ HexDigit s vs) (hn : vs.length = 2 * n) :
    Spells s (ofHalves vs) := by
  induction n generalizing s vs with
  | zero =>
    obtain rfl := List.eq_nil_of_length_eq_zero hn
    cases h
    exact .nil
  | succ n ih =>
    cases h with
    | nil => simp at hn
    | cons hc h =>
      cases h with
      | nil =>
        simp at hn
        omega
      | cons hd h =>
        refine .cons hc hd (ih h ?_)
        simp only [List.length_cons] at hn
        omega

end Halves

section Trimming

variable {p : UInt8 → Bool} {a t b : Bytes}

lemma trim_append (ha : ∀ c ∈ a, p c) (ht : ∀ c ∈ t, p c = false) (hb : ∀ c ∈ b, p c) :
    ((a ++ (t ++ b)).dropWhile p).rdropWhile p = t := by
  rw [List.dropWhile_append_of_pos ha]
  cases t with
  | nil => simp [List.dropWhile_eq_nil_iff.mpr hb]
  | cons x t =>
    have hx : p x = false := ht x List.mem_cons_self
    rw [List.cons_append, List.dropWhile_cons_of_neg (by simp [hx]), ← List.cons_append, List.rdropWhile,
      List.reverse_append, List.dropWhile_append_of_pos fun c hc => hb c (List.mem_reverse.mp hc)]
    have hlast : (x :: t).reverse.dropWhile p = (x :: t).reverse := by
      rw [List.dropWhile_eq_self_iff]
      intro hpos
      simpa using ht _ (List.mem_reverse.mp (List.getElem_mem hpos))
    rw [hlast, List.reverse_reverse]

lemma exists_trim (s : Bytes) :
    ∃ a b, s = a ++ ((s.dropWhile p).rdropWhile p ++ b) ∧ (∀ c ∈ a, p c) ∧ ∀ c ∈ b, p c := by
  refine ⟨s.takeWhile p, (s.dropWhile p).rtakeWhile p, ?_, fun c hc => List.mem_takeWhile_imp hc, fun c hc => ?_⟩
  · rw [List.rdropWhile_append_rtakeWhile, List.takeWhile_append_dropWhile]
  · exact List.mem_rtakeWhile_imp hc

end Trimming

end Multimaster
