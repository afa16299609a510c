import Mathlib.Data.List.Basic
import Mathlib.Data.List.Chain
import Mathlib.Tactic

/-! Switches that are reported: for each index the reports "on" and "off" so far, and which indices are on. -/

namespace Multimaster

structure Toggles {ι : Type} (reports : ι → List Bool) (up : ι → Prop) : Prop where
  chain : ∀ i, (reports i).IsChain (· ≠ ·)
  first : ∀ i, (reports i).head? ≠ some false
  last : ∀ i, (reports i).getLast? = some true ↔ up i

namespace Toggles

variable {ι : Type} {reports reports' : ι → List Bool} {up up' : ι → Prop}

lemma congr (h : Toggles reports up) (hr : ∀ i, reports' i = reports i) (hu : ∀ i, up' i ↔ up i) :
    Toggles reports' up' where
  chain i := by rw [hr]; exact h.chain i
  first i := by rw [hr]; exact h.first i
  last i := by rw [hr, hu]; exact h.last i

lemma next [DecidableEq ι] (h : Toggles reports up) (i : ι) {b : Bool} (hi : reports' i = reports i ++ [b])
    (ho : ∀ j ≠ i, reports' j = reports j) (hb : b = true ↔ ¬ up i) (hp : up' i ↔ b = true)
    (hu : ∀ j ≠ i, up' j ↔ up j) : Toggles reports' up' := by
  have flips : ∀ a ∈ (reports i).getLast?, a ≠ b := by
    rintro a ha rfl
    cases a with
    | true => exact hb.mp rfl ((h.last i).mp ha)
    | false =>
      have : up i := by simpa using hb
      rw [(h.last i).mpr this] at ha
      cases ha
  constructor
  · intro j
    by_cases hj : j = i
    · rw [hj, hi]
      refine (h.chain i).append (.singleton b) ?_
      simpa using flips
    · rw [ho j hj]
      exact h.chain j
  · intro j
    by_cases hj : j = i
    · rw [hj, hi]
      cases hc : reports i with
      | nil =>
        have hup := h.last i
        rw [hc] at hup
        have : b = true := hb.mpr fun hm => by simpa using hup.mpr hm
        simp [this]
      | cons a t =>
        have := h.first i
        rw [hc] at this
        simpa using this
    · rw [ho j hj]
      exact h.first j
  · intro j
    by_cases hj : j = i
    · rw [hj, hi, hp]
      simp
    · rw [ho j hj, hu j hj]
      exact h.last j

end Toggles

end Multimaster
