import Mathlib.Algebra.BigOperators.Group.Finset.Basic
import Mathlib.Algebra.Order.BigOperators.Group.Finset
import Mathlib.Data.Fintype.Prod
import Mathlib.Tactic

/-! What is in flight between nodes: a queue for each ordered pair, and how much there is of it. -/

namespace Multimaster.Flight

variable {V α β : Type} [DecidableEq V] {f : V → V → List α} {u v a b : V} {x y : α} {l : List α}

def pop (u v : V) (f : V → V → List α) (a b : V) : List α :=
  if a = u ∧ b = v then (f a b).tail else f a b

def push (out : V → Bool) (v : V) (x : α) (f : V → V → List α) (a b : V) : List α :=
  if a = v ∧ out b then f a b ++ [x] else f a b

lemma pop_of_ne (h : ¬(a = u ∧ b = v)) : pop u v f a b = f a b := if_neg h

lemma mem_pop (h : y ∈ pop u v f a b) : y ∈ f a b := by
  unfold pop at h
  split_ifs at h
  · exact List.mem_of_mem_tail h
  · exact h

lemma mem_pop_or (hf : f u v = x :: l) (h : y ∈ f a b) : y ∈ pop u v f a b ∨ a = u ∧ b = v ∧ y = x := by
  by_cases hab : a = u ∧ b = v
  · obtain ⟨rfl, rfl⟩ := hab
    rw [hf] at h
    rcases List.mem_cons.mp h with rfl | h
    · exact .inr ⟨rfl, rfl, rfl⟩
    · left
      rw [pop, if_pos ⟨rfl, rfl⟩, hf]
      exact h
  · exact .inl (pop_of_ne hab ▸ h)

lemma mem_push {out : V → Bool} : y ∈ push out v x f a b ↔ y ∈ f a b ∨ (a = v ∧ out b = true) ∧ y = x := by
  unfold push
  split_ifs with h
  · simp [h]
  · simp [h]

lemma pop_map (g : α → β) : pop u v (fun a b => (f a b).map g) a b = (pop u v f a b).map g := by
  unfold pop
  split_ifs
  · rw [List.map_tail]
  · rfl

lemma push_map (g : α → β) (out : V → Bool) :
    push out v (g x) (fun a b => (f a b).map g) a b = (push out v x f a b).map g := by
  unfold push
  split_ifs
  · rw [List.map_append, List.map_singleton]
  · rfl

section Load

variable [Fintype V]

def load (f : V → V → List α) : ℕ := ∑ p : V × V, (f p.1 p.2).length

lemma load_pop (hf : f u v = x :: l) : load (pop u v f) + 1 = load f := by
  have hu : (u, v) ∈ (Finset.univ : Finset (V × V)) := Finset.mem_univ _
  have hrest : ∑ p ∈ Finset.univ.erase (u, v), (pop u v f p.1 p.2).length =
      ∑ p ∈ Finset.univ.erase (u, v), (f p.1 p.2).length := by
    refine Finset.sum_congr rfl fun p hp => ?_
    rw [pop_of_ne fun h => (Finset.mem_erase.mp hp).1 (Prod.ext h.1 h.2)]
  rw [load, load, ← Finset.add_sum_erase _ _ hu, ← Finset.add_sum_erase _ _ hu, hrest]
  simp only [pop, and_self, if_true, hf, List.tail_cons, List.length_cons]
  omega

lemma load_push (out : V → Bool) (v : V) (x : α) (f : V → V → List α) :
    load (push out v x f) ≤ load f + Fintype.card V := by
  have hle (p : V × V) : (push out v x f p.1 p.2).length ≤ (f p.1 p.2).length + if p.1 = v then 1 else 0 := by
    unfold push
    split_ifs <;> simp_all
  have hcard : ∑ p : V × V, (if p.1 = v then 1 else 0) = Fintype.card V := by
    rw [Fintype.sum_prod_type_right]
    simp
  calc load (push out v x f)
      ≤ ∑ p : V × V, ((f p.1 p.2).length + if p.1 = v then 1 else 0) := Finset.sum_le_sum fun p _ => hle p
    _ = load f + Fintype.card V := by rw [Finset.sum_add_distrib, hcard, load]

end Load

end Multimaster.Flight
