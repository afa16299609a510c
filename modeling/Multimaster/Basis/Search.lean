import Mathlib.Data.List.Nodup
import Mathlib.Logic.Relation
import Mathlib.Tactic

/-! Breadth-first search with a queue: it visits what can be reached, once, and ends. -/

namespace Multimaster.Search

variable {α : Type} [DecidableEq α]

def visit (s : List α × List α) (v : α) : List α × List α :=
  if v ∈ s.2 then s else (s.1 ++ [v], s.2 ++ [v])

def explore (adj : α → List α) : ℕ → List α → List α → List α
  | 0, _, visited => visited
  | _, [], visited => visited
  | k + 1, u :: work, visited =>
    let s := (adj u).foldl visit (work, visited)
    explore adj k s.1 s.2

lemma visit_foldl (l work visited : List α) (hv : visited.Nodup) :
    ∃ new, l.foldl visit (work, visited) = (work ++ new, visited ++ new) ∧ (visited ++ new).Nodup ∧
      (∀ v ∈ new, v ∈ l) ∧ ∀ v ∈ l, v ∈ visited ++ new := by
  induction l generalizing work visited with
  | nil => exact ⟨[], by simp, by simpa using hv, nofun, nofun⟩
  | cons a l ih =>
    by_cases ha : a ∈ visited
    · have hvisit : visit (work, visited) a = (work, visited) := if_pos ha
      obtain ⟨new, hf, hn, hnew, hl⟩ := ih work visited hv
      refine ⟨new, by rw [List.foldl_cons, hvisit, hf], hn, fun v h => List.mem_cons_of_mem a (hnew v h), ?_⟩
      intro v hvl
      rcases List.mem_cons.mp hvl with rfl | hvl
      · exact List.mem_append_left new ha
      · exact hl v hvl
    · have hvisit : visit (work, visited) a = (work ++ [a], visited ++ [a]) := if_neg ha
      have hn : (visited ++ [a]).Nodup := by
        rw [List.nodup_append]
        refine ⟨hv, List.nodup_singleton a, ?_⟩
        rintro x hx y hy rfl
        exact ha (List.mem_singleton.mp hy ▸ hx)
      obtain ⟨new, hf, hn, hnew, hl⟩ := ih (work ++ [a]) (visited ++ [a]) hn
      rw [List.append_assoc, List.append_assoc] at hf
      rw [List.append_assoc] at hn
      refine ⟨a :: new, by rw [List.foldl_cons, hvisit, hf]; rfl, hn, ?_, ?_⟩
      · intro v hvn
        rcases List.mem_cons.mp hvn with rfl | hvn
        · exact List.mem_cons_self
        · exact List.mem_cons_of_mem a (hnew v hvn)
      · intro v hvl
        rcases List.mem_cons.mp hvl with rfl | hvl
        · simp
        · have := hl v hvl
          rwa [List.append_assoc] at this

variable {adj : α → List α} {R : α → Prop} {U : List α}

lemma explore_nodup (k : ℕ) {work visited : List α} (hv : visited.Nodup) :
    (explore adj k work visited).Nodup := by
  induction k generalizing work visited with
  | zero => exact hv
  | succ k ih =>
    cases work with
    | nil => exact hv
    | cons u work =>
      obtain ⟨new, hf, hn, -⟩ := visit_foldl (adj u) work visited hv
      rw [explore, hf]
      exact ih hn

lemma subset_explore (k : ℕ) {work visited : List α} (hv : visited.Nodup) :
    ∀ v ∈ visited, v ∈ explore adj k work visited := by
  induction k generalizing work visited with
  | zero => exact fun v h => h
  | succ k ih =>
    cases work with
    | nil => exact fun v h => h
    | cons u work =>
      obtain ⟨new, hf, hn, -⟩ := visit_foldl (adj u) work visited hv
      rw [explore, hf]
      exact fun v h => ih hn v (List.mem_append_left new h)

lemma explore_sound (hR : ∀ u, R u → ∀ v ∈ adj u, R v) (k : ℕ) {work visited : List α} (hv : visited.Nodup)
    (hw : ∀ v ∈ work, R v) (hr : ∀ v ∈ visited, R v) : ∀ v ∈ explore adj k work visited, R v := by
  induction k generalizing work visited with
  | zero => exact hr
  | succ k ih =>
    cases work with
    | nil => exact hr
    | cons u work =>
      obtain ⟨new, hf, hn, hnew, -⟩ := visit_foldl (adj u) work visited hv
      have hRnew : ∀ v ∈ new, R v := fun v h => hR u (hw u List.mem_cons_self) v (hnew v h)
      rw [explore, hf]
      refine ih hn ?_ ?_
      · exact fun v h => (List.mem_append.mp h).elim (fun h => hw v (List.mem_cons_of_mem u h)) (hRnew v)
      · exact fun v h => (List.mem_append.mp h).elim (hr v) (hRnew v)

lemma explore_closed (hU : ∀ u, ∀ v ∈ adj u, v ∈ U) (k : ℕ) {work visited : List α} (hv : visited.Nodup)
    (hvU : ∀ v ∈ visited, v ∈ U) (hw : ∀ u ∈ visited, u ∈ work ∨ ∀ v ∈ adj u, v ∈ visited)
    (hk : work.length + U.length ≤ k + visited.length) :
    ∀ u ∈ explore adj k work visited, ∀ v ∈ adj u, v ∈ explore adj k work visited := by
  induction k generalizing work visited with
  | zero =>
    have hle : visited.length ≤ U.length := (hv.subperm hvU).length_le
    have hnil : work = [] := List.eq_nil_of_length_eq_zero (by omega)
    subst hnil
    exact fun u hu => (hw u hu).resolve_left List.not_mem_nil
  | succ k ih =>
    cases work with
    | nil => exact fun u hu => (hw u hu).resolve_left List.not_mem_nil
    | cons u work =>
      obtain ⟨new, hf, hn, hnew, hl⟩ := visit_foldl (adj u) work visited hv
      rw [explore, hf]
      refine ih hn ?_ ?_ ?_
      · exact fun v h => (List.mem_append.mp h).elim (hvU v) fun h => hU u v (hnew v h)
      · intro x hx
        rcases List.mem_append.mp hx with hx | hx
        · rcases hw x hx with hx | hx
          · rcases List.mem_cons.mp hx with rfl | hx
            · exact .inr hl
            · exact .inl (List.mem_append_left new hx)
          · exact .inr fun v h => List.mem_append_left new (hx v h)
        · exact .inl (List.mem_append_right work hx)
      · simp only [List.length_append, List.length_cons] at hk ⊢
        omega

lemma mem_explore (hU : ∀ u, ∀ v ∈ adj u, v ∈ U) {s : α} (hs : s ∈ U) {k : ℕ} (hk : U.length ≤ k) (v : α) :
    v ∈ explore adj k [s] [s] ↔ Relation.ReflTransGen (fun u v => v ∈ adj u) s v := by
  have hone : [s].Nodup := List.nodup_singleton s
  constructor
  · refine explore_sound (fun u hu v hv => hu.tail hv) k hone ?_ ?_ v
    · exact fun v hv => List.mem_singleton.mp hv ▸ .refl
    · exact fun v hv => List.mem_singleton.mp hv ▸ .refl
  · intro h
    have hclosed := explore_closed hU k hone (fun v hv => List.mem_singleton.mp hv ▸ hs)
      (fun u hu => .inl hu) (by simp only [List.length_singleton]; omega)
    induction h with
    | refl => exact subset_explore k hone s List.mem_cons_self
    | tail _ h ih => exact hclosed _ ih _ h

end Multimaster.Search
