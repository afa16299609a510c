import Mathlib.Data.List.Basic
import Mathlib.Tactic

/-! Byte strings of a fixed length and unsigned integers in network byte order. -/

namespace Multimaster

abbrev Bytes := List UInt8

abbrev Octets (n : ℕ) := {l : Bytes // l.length = n}

def memcmpLt : Bytes → Bytes → Bool
  | a :: x, b :: y => decide (a < b) || (a == b && memcmpLt x y)
  | _, _ => false

lemma memcmpLt_irrefl (x : Bytes) : memcmpLt x x = false := by
  induction x with
  | nil => rfl
  | cons a x ih => simp [memcmpLt, ih]

lemma memcmpLt_flip {x y : Bytes} (hl : x.length = y.length) (h : x ≠ y) :
    memcmpLt y x = !memcmpLt x y := by
  induction x generalizing y with
  | nil =>
    cases y with
    | nil => exact (h rfl).elim
    | cons => simp at hl
  | cons a x ih =>
    cases y with
    | nil => simp at hl
    | cons b y =>
      have hl' : x.length = y.length := by simpa using hl
      by_cases hab : a = b
      · subst b
        have hx : x ≠ y := fun he => h (by rw [he])
        simp [memcmpLt, ih hl' hx]
      · rcases UInt8.lt_or_lt_of_ne hab with hlt | hlt
        · simp [memcmpLt, Ne.symm hab, hlt, UInt8.lt_asymm hlt]
        · simp [memcmpLt, hab, hlt, UInt8.lt_asymm hlt]

lemma memcmpLt_trans {x y z : Bytes} (h : memcmpLt x y = true) (k : memcmpLt y z = true) :
    memcmpLt x z = true := by
  induction x generalizing y z with
  | nil => cases h
  | cons a x ih =>
    match y, z, h, k with
    | b :: y, c :: z, h, k =>
      simp only [memcmpLt, Bool.or_eq_true, decide_eq_true_eq, Bool.and_eq_true, beq_iff_eq] at h k ⊢
      rcases h with h | ⟨rfl, h⟩
      · rcases k with k | ⟨rfl, -⟩
        · exact .inl (UInt8.lt_trans h k)
        · exact .inl h
      · rcases k with k | ⟨rfl, k⟩
        · exact .inl k
        · exact .inr ⟨rfl, ih h k⟩

namespace Octets

def zero (n : ℕ) : Octets n := ⟨List.replicate n 0, List.length_replicate⟩

instance (n : ℕ) : Inhabited (Octets n) := ⟨zero n⟩

instance {n : ℕ} (x : Octets n) (l : List (Octets n)) : Decidable (x ∈ l) := inferInstance

def isZero {n : ℕ} (x : Octets n) : Bool := x.val.all (· == 0)

lemma isZero_iff {n : ℕ} (x : Octets n) : x.isZero = true ↔ x = zero n := by
  rw [isZero, List.all_eq_true]
  constructor
  · intro h
    apply Subtype.ext
    exact List.eq_replicate_iff.mpr ⟨x.property, fun b hb => by simpa using h b hb⟩
  · rintro rfl b hb
    obtain ⟨_, rfl⟩ := List.mem_replicate.mp hb
    rfl

def lt {n : ℕ} (x y : Octets n) : Bool := memcmpLt x.val y.val

lemma lt_irrefl {n : ℕ} (x : Octets n) : x.lt x = false := memcmpLt_irrefl _

lemma lt_trans {n : ℕ} {x y z : Octets n} (h : x.lt y = true) (k : y.lt z = true) : x.lt z = true :=
  memcmpLt_trans h k

lemma lt_flip {n : ℕ} {x y : Octets n} (h : x ≠ y) : y.lt x = !x.lt y :=
  memcmpLt_flip (x.property.trans y.property.symm) (fun hv => h (Subtype.ext hv))

lemma lt_of_ne {n : ℕ} {x y : Octets n} (h : x ≠ y) (k : y.lt x = false) : x.lt y = true := by
  have := lt_flip h
  rw [k] at this
  simpa using this.symm

end Octets

/-- The `w` low-order bytes of `v`, most significant first. -/
def networkOrder : ℕ → ℕ → Bytes
  | 0, _ => []
  | w + 1, v => networkOrder w (v / 256) ++ [UInt8.ofNat v]

def hostOrder (l : Bytes) : ℕ := l.foldl (fun v b => v * 256 + b.toNat) 0

@[simp] lemma networkOrder_length (w v : ℕ) : (networkOrder w v).length = w := by
  induction w generalizing v with
  | zero => rfl
  | succ w ih => simp [networkOrder, ih]

lemma hostOrder_snoc (l : Bytes) (b : UInt8) : hostOrder (l ++ [b]) = hostOrder l * 256 + b.toNat := by
  simp [hostOrder]

lemma hostOrder_networkOrder {w v : ℕ} (h : v < 256 ^ w) : hostOrder (networkOrder w v) = v := by
  induction w generalizing v with
  | zero =>
    have : v = 0 := by simpa using h
    simp [networkOrder, hostOrder, this]
  | succ w ih =>
    have hd : v / 256 < 256 ^ w := by
      rw [pow_succ] at h
      exact Nat.div_lt_of_lt_mul (by omega)
    have hb : (UInt8.ofNat v).toNat = v % 256 := by simp
    rw [networkOrder, hostOrder_snoc, ih hd, hb]
    omega

lemma hostOrder_lt (l : Bytes) : hostOrder l < 256 ^ l.length := by
  induction l using List.reverseRecOn with
  | nil => simp [hostOrder]
  | append_singleton l b ih =>
    have hb := b.toNat_lt
    rw [hostOrder_snoc, List.length_append, List.length_singleton, pow_succ]
    omega

end Multimaster
