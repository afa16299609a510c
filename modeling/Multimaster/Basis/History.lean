import Mathlib.Data.List.Count
import Mathlib.Tactic

/-! Histories: lists of entries that only grow, in which each entry is judged by those before it. -/

namespace Multimaster

variable {ε : Type} {P Q : List ε → ε → Prop} {l : List ε} {e : ε}

def Precedented (P : List ε → ε → Prop) (l : List ε) : Prop := ∀ a e b, l = a ++ e :: b → P a e

namespace Precedented

lemma nil : Precedented P [] := fun a e b h => by simp at h

lemma snoc (h : Precedented P l) (he : P l e) : Precedented P (l ++ [e]) := by
  intro a x b hl
  rcases List.eq_nil_or_concat b with rfl | ⟨b', y, rfl⟩
  · obtain ⟨rfl, hx⟩ := List.append_inj' hl rfl
    obtain rfl := (List.cons.inj hx).1
    exact he
  · have hl' : l ++ [e] = (a ++ x :: b') ++ [y] := by rw [hl]; simp
    exact h a x b' (List.append_inj' hl' rfl).1

lemma init (h : Precedented P (l ++ [e])) : Precedented P l := fun a x b hl => h a x (b ++ [e]) (by rw [hl]; simp)

lemma last (h : Precedented P (l ++ [e])) : P l e := h l e [] rfl

lemma countP_le_one {f : ε → Bool} (h : Precedented P l)
    (hf : ∀ a e, P a e → f e = true → ∀ x ∈ a, f x = false) : l.countP f ≤ 1 := by
  induction l using List.reverseRecOn with
  | nil => exact Nat.zero_le 1
  | append_singleton l e ih =>
    rw [List.countP_append]
    cases he : f e with
    | false => simpa [he] using ih h.init
    | true =>
      have hl : l.countP f = 0 := List.countP_eq_zero.mpr fun x hx => by simp [hf l e h.last he x hx]
      simp [hl, he]

end Precedented

section Numbered

variable [DecidableEq ε]

def numberedAfter (past : List ε) : List ε → List (ε × ℕ)
  | [] => []
  | e :: l => (e, past.count e) :: numberedAfter (e :: past) l

def numbered (l : List ε) : List (ε × ℕ) := numberedAfter [] l

lemma mem_numberedAfter {past : List ε} {i : ℕ} :
    (e, i) ∈ numberedAfter past l ↔ past.count e ≤ i ∧ i < past.count e + l.count e := by
  induction l generalizing past with
  | nil => simp [numberedAfter]
  | cons a l ih =>
    rw [numberedAfter, List.mem_cons, ih, Prod.mk.injEq]
    by_cases ha : a = e
    · subst ha
      rw [List.count_cons_self, List.count_cons_self]
      simp only [true_and]
      omega
    · rw [List.count_cons_of_ne ha, List.count_cons_of_ne ha]
      simp [Ne.symm ha]

lemma mem_numbered {i : ℕ} : (e, i) ∈ numbered l ↔ i < l.count e := by simp [numbered, mem_numberedAfter]

lemma nodup_numberedAfter (past l : List ε) : (numberedAfter past l).Nodup := by
  induction l generalizing past with
  | nil => exact List.nodup_nil
  | cons a l ih =>
    refine List.nodup_cons.mpr ⟨fun h => ?_, ih _⟩
    have := (mem_numberedAfter.mp h).1
    rw [List.count_cons_self] at this
    omega

lemma nodup_numbered (l : List ε) : (numbered l).Nodup := nodup_numberedAfter [] l

lemma numberedAfter_snoc (past l : List ε) (e : ε) :
    numberedAfter past (l ++ [e]) = numberedAfter past l ++ [(e, past.count e + l.count e)] := by
  induction l generalizing past with
  | nil => simp [numberedAfter]
  | cons a l ih =>
    rw [List.cons_append, numberedAfter, ih, numberedAfter, List.cons_append, List.count_cons, List.count_cons]
    congr 4
    omega

lemma numbered_snoc (l : List ε) (e : ε) : numbered (l ++ [e]) = numbered l ++ [(e, l.count e)] := by
  rw [numbered, numberedAfter_snoc, List.count_nil, Nat.zero_add]
  rfl

end Numbered

end Multimaster
