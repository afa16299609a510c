import Mathlib.Tactic

/-! Progress along an infinite run: a rank that no step raises and that helpful steps lower. -/

namespace Multimaster.Leads

variable {W : Type} (w : ℕ → W) (P Q : W → Prop) (rank : W → ℕ) {helpful : ℕ → Prop}

lemma stays (step : ∀ k, P (w k) → Q (w (k + 1)) ∨ P (w (k + 1)) ∧ rank (w (k + 1)) ≤ rank (w k)) {k : ℕ}
    (hk : P (w k)) (d : ℕ) : (∃ j ≥ k, Q (w j)) ∨ P (w (k + d)) ∧ rank (w (k + d)) ≤ rank (w k) := by
  induction d with
  | zero => exact .inr ⟨hk, le_rfl⟩
  | succ d ih =>
    rcases ih with h | ⟨hP, hr⟩
    · exact .inl h
    · rcases step (k + d) hP with hQ | ⟨hP', hr'⟩
      · exact .inl ⟨k + d + 1, by omega, hQ⟩
      · exact .inr ⟨hP', hr'.trans hr⟩

lemma of_rank (fair : ∀ k, P (w k) → ∃ j ≥ k, helpful j)
    (step : ∀ k, P (w k) → Q (w (k + 1)) ∨ P (w (k + 1)) ∧ rank (w (k + 1)) ≤ rank (w k))
    (drop : ∀ k, P (w k) → helpful k → Q (w (k + 1)) ∨ rank (w (k + 1)) < rank (w k)) {k : ℕ} (hk : P (w k)) :
    ∃ j ≥ k, Q (w j) := by
  induction hr : rank (w k) using Nat.strong_induction_on generalizing k with
  | _ r ih =>
    obtain ⟨j, hj, hhelp⟩ := fair k hk
    obtain ⟨d, rfl⟩ := Nat.exists_eq_add_of_le hj
    rcases stays w P Q rank step hk d with h | ⟨hP, hle⟩
    · exact h
    · rcases drop _ hP hhelp with hQ | hlt
      · exact ⟨k + d + 1, by omega, hQ⟩
      · rcases step _ hP with hQ | ⟨hP', -⟩
        · exact ⟨k + d + 1, by omega, hQ⟩
        · obtain ⟨i, hi, hQ⟩ := ih _ (by omega) hP' rfl
          exact ⟨i, by omega, hQ⟩

end Multimaster.Leads
