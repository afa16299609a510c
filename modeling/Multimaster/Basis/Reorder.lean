import Mathlib.Data.List.Perm.Basic
import Mathlib.Tactic

/-! Enumeration of a hash table in an order the program does not choose, and unused addresses. -/

namespace Multimaster

variable {α : Type}

def reorder : List ℕ → List α → List α
  | [], l => l
  | _, [] => []
  | k :: ks, a :: l =>
    (a :: l).get ⟨k % (l.length + 1), Nat.mod_lt _ (Nat.succ_pos _)⟩ ::
      reorder ks ((a :: l).eraseIdx (k % (l.length + 1)))

lemma reorder_perm (ks : List ℕ) (l : List α) : (reorder ks l).Perm l := by
  induction ks generalizing l with
  | nil => exact List.Perm.refl l
  | cons k ks ih =>
    cases l with
    | nil => exact List.Perm.refl []
    | cons a l =>
      have hk : k % (l.length + 1) < (a :: l).length := Nat.mod_lt _ (Nat.succ_pos _)
      exact ((ih _).cons _).trans (List.getElem_cons_eraseIdx_perm hk)

@[simp] lemma mem_reorder (ks : List ℕ) (l : List α) (a : α) : a ∈ reorder ks l ↔ a ∈ l :=
  (reorder_perm ks l).mem_iff

def unused (l : List ℕ) : ℕ := l.foldr max 0 + 1

lemma unused_notMem (l : List ℕ) : unused l ∉ l := by
  intro h
  have hle : ∀ a ∈ l, a ≤ l.foldr max 0 := by
    clear h
    induction l with
    | nil => simp
    | cons b l ih =>
      intro a ha
      rcases List.mem_cons.mp ha with rfl | ha
      · simp
      · exact (ih a ha).trans (le_max_right _ _)
  have := hle _ h
  simp [unused] at this

lemma filterMap_sublist_map {β : Type} {f : α → Option β} {g : α → β} (h : ∀ a b, f a = some b → b = g a)
    (l : List α) : (l.filterMap f).Sublist (l.map g) := by
  induction l with
  | nil => exact .slnil
  | cons a l ih =>
    cases hf : f a with
    | none =>
      rw [List.filterMap_cons_none hf]
      exact ih.cons _
    | some b =>
      rw [List.filterMap_cons_some hf, h a b hf]
      exact ih.cons_cons _

lemma filter_eraseIdx {P : α → Bool} {l : List α} {i : ℕ} {a : α} (h : l[i]? = some a) (ha : P a = false) :
    (l.eraseIdx i).filter P = l.filter P := by
  induction l generalizing i with
  | nil => cases h
  | cons b l ih =>
    cases i with
    | zero =>
      obtain rfl : b = a := Option.some.inj h
      simp [ha]
    | succ i => simp only [List.eraseIdx_cons_succ, List.filter_cons, ih h]

lemma length_filter_eraseIdx {P : α → Bool} {l : List α} {i : ℕ} {a : α} (h : l[i]? = some a) (ha : P a = true) :
    ((l.eraseIdx i).filter P).length + 1 = (l.filter P).length := by
  induction l generalizing i with
  | nil => cases h
  | cons b l ih =>
    cases i with
    | zero =>
      obtain rfl : b = a := Option.some.inj h
      simp [ha]
    | succ i =>
      have hrest := ih (i := i) h
      rw [List.eraseIdx_cons_succ, List.filter_cons, List.filter_cons]
      split_ifs
      · simpa using hrest
      · exact hrest

end Multimaster
