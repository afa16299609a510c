import Mathlib.Data.List.Induction
import Mathlib.Tactic

/-! Maps that keep the newest value of each key: what they hold does not depend on the order in which
the values were offered. -/

namespace Multimaster.Newest

variable {κ α ν : Type} [LinearOrder ν]

structure Holds (age : α → ν) (σ : κ → α) (l : List (κ × α)) (τ : κ → α) : Prop where
  source : ∀ k, τ k = σ k ∨ (k, τ k) ∈ l ∧ age (σ k) < age (τ k)
  newest : ∀ r ∈ l, age r.2 ≤ age (τ r.1)

variable {age : α → ν} {σ τ : κ → α} {l m : List (κ × α)}

lemma Holds.grows (h : Holds age σ l τ) (k : κ) : age (σ k) ≤ age (τ k) := by
  rcases h.source k with hk | ⟨-, hk⟩
  · rw [hk]
  · exact hk.le

lemma Holds.unique {τ' : κ → α} (h : Holds age σ l τ) (h' : Holds age σ m τ') (hsub : ∀ r, r ∈ l ↔ r ∈ m)
    (hdet : ∀ k a b, (k, a) ∈ l → (k, b) ∈ l → age a = age b → a = b) : τ = τ' := by
  funext k
  have hle : ∀ {l m : List (κ × α)} {τ τ' : κ → α}, Holds age σ l τ → Holds age σ m τ' → (∀ r, r ∈ l → r ∈ m) →
      age (τ k) ≤ age (τ' k) := by
    intro l m τ τ' h h' hsub
    rcases h.source k with hk | ⟨hk, -⟩
    · rw [hk]
      exact h'.grows k
    · exact h'.newest _ (hsub _ hk)
  have hage : age (τ k) = age (τ' k) :=
    (hle h h' fun r => (hsub r).mp).antisymm (hle h' h fun r => (hsub r).mpr)
  rcases h.source k with hk | ⟨hk, hlt⟩
  · rcases h'.source k with hk' | ⟨-, hlt'⟩
    · rw [hk, hk']
    · rw [← hage, hk] at hlt'
      exact absurd hlt' (lt_irrefl _)
  · rcases h'.source k with hk' | ⟨hk', -⟩
    · rw [hage, hk'] at hlt
      exact absurd hlt (lt_irrefl _)
    · exact hdet k _ _ hk ((hsub _).mpr hk') hage

variable [DecidableEq κ]

def adopt (age : α → ν) (σ : κ → α) (r : κ × α) : κ → α :=
  if age (σ r.1) < age r.2 then Function.update σ r.1 r.2 else σ

lemma adopt_self (age : α → ν) (σ : κ → α) (r : κ × α) : age r.2 ≤ age (adopt age σ r r.1) := by
  unfold adopt
  split_ifs with h
  · rw [Function.update_self]
  · exact not_lt.mp h

lemma adopt_source (age : α → ν) (σ : κ → α) (r : κ × α) (k : κ) :
    adopt age σ r k = σ k ∨ k = r.1 ∧ adopt age σ r k = r.2 ∧ age (σ k) < age r.2 := by
  unfold adopt
  split_ifs with h
  · by_cases hk : k = r.1
    · subst hk
      exact .inr ⟨rfl, Function.update_self .., h⟩
    · exact .inl (Function.update_of_ne hk ..)
  · exact .inl rfl

lemma Holds.adopt (h : Holds age σ l τ) (r : κ × α) : Holds age σ (l ++ [r]) (adopt age τ r) where
  source k := by
    rcases adopt_source age τ r k with hk | ⟨rfl, hk, hlt⟩
    · rw [hk]
      exact (h.source k).imp_right fun ⟨hm, hlt⟩ => ⟨List.mem_append_left _ hm, hlt⟩
    · rw [hk]
      exact .inr ⟨by simp, (h.grows r.1).trans_lt hlt⟩
  newest s hs := by
    rcases List.mem_append.mp hs with hs | hs
    · refine (h.newest s hs).trans ?_
      rcases adopt_source age τ r s.1 with hk | ⟨-, hk, hlt⟩
      · rw [hk]
      · rw [hk]
        exact hlt.le
    · obtain rfl := List.mem_singleton.mp hs
      exact adopt_self age τ s

lemma holds_foldl (age : α → ν) (σ : κ → α) (l : List (κ × α)) : Holds age σ l (l.foldl (Newest.adopt age) σ) := by
  induction l using List.reverseRecOn with
  | nil => exact ⟨fun _ => .inl rfl, nofun⟩
  | append_singleton l r ih =>
    rw [List.foldl_append]
    exact ih.adopt r

end Multimaster.Newest
