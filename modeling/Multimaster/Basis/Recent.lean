import Mathlib.Data.List.Induction
import Mathlib.Data.List.Nodup
import Mathlib.Tactic

/-! A queue of the keys seen most recently, each with the time when it was taken. It holds a bounded number of keys,
and a sweep forgets the old ones: how long a key is remembered. -/

namespace Multimaster.Recent

variable {κ : Type} [DecidableEq κ]

inductive Op (κ : Type) where
  | offer (k : κ)
  | sweep

def taken (q : List (κ × ℤ)) : Op κ → Option κ
  | .offer k => if k ∈ q.map Prod.fst then none else some k
  | .sweep => none

variable (cap : ℕ) (ttl : ℤ)

def step (q : List (κ × ℤ)) (e : ℤ × Op κ) : List (κ × ℤ) :=
  match e.2 with
  | .offer k => if k ∈ q.map Prod.fst then q else (q ++ [(k, e.1)]).drop (q.length + 1 - cap)
  | .sweep => q.dropWhile fun s => decide (s.2 < e.1 - ttl)

def inserts : List (κ × ℤ) → List (ℤ × Op κ) → List κ
  | _, [] => []
  | q, e :: es => (taken q e.2).toList ++ inserts (step cap ttl q e) es

def Passed (k : κ) (t : ℤ) (q : List (κ × ℤ)) (es : List (ℤ × Op κ)) : Prop :=
  (∃ l : List κ, l.Nodup ∧ cap ≤ l.length ∧ ∀ x ∈ l, x ≠ k ∧ x ∈ inserts cap ttl q es) ∨
    ∃ s, (s, Op.sweep) ∈ es ∧ t + ttl < s

structure Bounded (q : List (κ × ℤ)) : Prop where
  nodup : (q.map Prod.fst).Nodup
  length : q.length ≤ cap

variable {cap ttl} {q : List (κ × ℤ)} {k : κ} {t : ℤ} {es : List (ℤ × Op κ)}

lemma inserts_append (q : List (κ × ℤ)) (es fs : List (ℤ × Op κ)) :
    inserts cap ttl q (es ++ fs) = inserts cap ttl q es ++ inserts cap ttl (es.foldl (step cap ttl) q) fs := by
  induction es generalizing q with
  | nil => rfl
  | cons e es ih => simp [inserts, ih]

lemma Passed.append (h : Passed cap ttl k t q es) (fs : List (ℤ × Op κ)) : Passed cap ttl k t q (es ++ fs) := by
  rcases h with ⟨l, hl, hcap, hmem⟩ | ⟨s, hs, hlt⟩
  · refine .inl ⟨l, hl, hcap, fun x hx => ⟨(hmem x hx).1, ?_⟩⟩
    rw [inserts_append]
    exact List.mem_append_left _ (hmem x hx).2
  · exact .inr ⟨s, List.mem_append_left _ hs, hlt⟩

lemma step_suffix (cap : ℕ) (ttl : ℤ) (q : List (κ × ℤ)) (e : ℤ × Op κ) :
    step cap ttl q e <:+ q ∨ ∃ k, taken q e.2 = some k ∧ step cap ttl q e <:+ q ++ [(k, e.1)] := by
  unfold step taken
  cases e.2 with
  | sweep => exact .inl (List.dropWhile_suffix _)
  | offer k =>
    dsimp only
    split_ifs
    · exact .inl List.suffix_rfl
    · exact .inr ⟨k, rfl, List.drop_suffix _ _⟩

lemma taken_notMem {o : Op κ} (h : taken q o = some k) : k ∉ q.map Prod.fst := by
  unfold taken at h
  cases o with
  | sweep => cases h
  | offer j =>
    dsimp only at h
    split_ifs at h with hj
    cases h
    exact hj

lemma Bounded.step (h : Bounded cap q) (ttl : ℤ) (e : ℤ × Op κ) : Bounded cap (step cap ttl q e) := by
  constructor
  · rcases step_suffix cap ttl q e with hs | ⟨k, hk, hs⟩
    · exact h.nodup.sublist (hs.map _).sublist
    · refine List.Nodup.sublist (hs.map _).sublist ?_
      rw [List.map_append]
      exact h.nodup.append (List.nodup_singleton k) (List.disjoint_singleton.mpr (taken_notMem hk))
  · have hlen := h.length
    unfold Recent.step
    cases e.2 with
    | sweep => exact (List.dropWhile_suffix _).length_le.trans hlen
    | offer k =>
      dsimp only
      split_ifs
      · exact hlen
      · rw [List.length_drop, List.length_append, List.length_singleton]
        omega

lemma Bounded.run (h : Bounded cap q) (ttl : ℤ) (es : List (ℤ × Op κ)) :
    Bounded cap (es.foldl (Recent.step cap ttl) q) := by
  induction es generalizing q with
  | nil => exact h
  | cons e es ih => exact ih (h.step ttl e)

structure Aged (now : ℤ) (q : List (κ × ℤ)) : Prop where
  sorted : q.Pairwise fun a b => a.2 ≤ b.2
  past : ∀ s ∈ q, s.2 ≤ now

lemma Aged.step {now : ℤ} (h : Aged now q) {e : ℤ × Op κ} (hle : now ≤ e.1) : Aged e.1 (step cap ttl q e) := by
  have hq : Aged e.1 q := ⟨h.sorted, fun s hs => (h.past s hs).trans hle⟩
  rcases step_suffix cap ttl q e with hs | ⟨k, -, hs⟩
  · exact ⟨hq.sorted.sublist hs.sublist, fun s hmem => hq.past s (hs.subset hmem)⟩
  · have hnew : Aged e.1 (q ++ [(k, e.1)]) := by
      constructor
      · refine List.pairwise_append.mpr ⟨hq.sorted, List.pairwise_singleton _ _, fun a ha b hb => ?_⟩
        obtain rfl := List.mem_singleton.mp hb
        exact hq.past a ha
      · intro s hmem
        rcases List.mem_append.mp hmem with hmem | hmem
        · exact hq.past s hmem
        · obtain rfl := List.mem_singleton.mp hmem
          exact le_refl _
    exact ⟨hnew.sorted.sublist hs.sublist, fun s hmem => hnew.past s (hs.subset hmem)⟩

lemma Aged.swept {now : ℤ} (h : Aged now q) (cap : ℕ) (ttl s : ℤ) :
    ∀ x ∈ Recent.step cap ttl q (s, .sweep), s - ttl ≤ x.2 := by
  have hsort := h.sorted
  clear h
  change ∀ x ∈ q.dropWhile (fun y => decide (y.2 < s - ttl)), s - ttl ≤ x.2
  induction q with
  | nil => nofun
  | cons y q ih =>
    rw [List.pairwise_cons] at hsort
    rw [List.dropWhile_cons]
    split_ifs with hy
    · exact ih hsort.2
    · intro x hx
      have hy : s - ttl ≤ y.2 := by simpa using hy
      rcases List.mem_cons.mp hx with rfl | hx
      · exact hy
      · exact hy.trans (hsort.1 x hx)

omit [DecidableEq κ] in
lemma dropWhile_middle (p : κ × ℤ → Bool) (xs ys : List (κ × ℤ)) (a : κ × ℤ) :
    (∃ zs, (xs ++ a :: ys).dropWhile p = zs ++ a :: ys) ∨ p a = true := by
  induction xs with
  | nil =>
    cases ha : p a with
    | true => exact .inr rfl
    | false => exact .inl ⟨[], by simp [ha]⟩
  | cons x xs ih =>
    rw [List.cons_append, List.dropWhile_cons]
    split_ifs
    · exact ih
    · exact .inl ⟨x :: xs, rfl⟩

lemma kept_or_passed {xs : List (κ × ℤ)} (hq : Bounded cap (xs ++ [(k, t)])) (es : List (ℤ × Op κ)) :
    (∃ xs' ys, es.foldl (step cap ttl) (xs ++ [(k, t)]) = xs' ++ (k, t) :: ys ∧
      ∀ y ∈ ys, y.1 ∈ inserts cap ttl (xs ++ [(k, t)]) es) ∨ Passed cap ttl k t (xs ++ [(k, t)]) es := by
  induction es using List.reverseRecOn with
  | nil => exact .inl ⟨xs, [], rfl, nofun⟩
  | append_singleton es e ih =>
    rcases ih with ⟨xs', ys, heq, hys⟩ | hp
    · have hins : inserts cap ttl (xs ++ [(k, t)]) (es ++ [e]) =
          inserts cap ttl (xs ++ [(k, t)]) es ++ (taken (xs' ++ (k, t) :: ys) e.2).toList := by
        rw [inserts_append, heq]
        simp [inserts]
      have hold : ∀ y ∈ ys, y.1 ∈ inserts cap ttl (xs ++ [(k, t)]) (es ++ [e]) := by
        intro y hy
        rw [hins]
        exact List.mem_append_left _ (hys y hy)
      rw [List.foldl_append, heq, List.foldl_cons, List.foldl_nil]
      obtain ⟨s, o⟩ := e
      cases o with
      | sweep =>
        rcases dropWhile_middle (fun y => decide (y.2 < s - ttl)) xs' ys (k, t) with ⟨zs, hz⟩ | hlt
        · exact .inl ⟨zs, ys, hz, hold⟩
        · refine .inr (.inr ⟨s, by simp, ?_⟩)
          have hlt : t < s - ttl := by simpa using hlt
          omega
      | offer j =>
        by_cases hj : j ∈ (xs' ++ (k, t) :: ys).map Prod.fst
        · refine .inl ⟨xs', ys, ?_, hold⟩
          exact if_pos hj
        · have hstep : step cap ttl (xs' ++ (k, t) :: ys) (s, .offer j) =
              (xs' ++ (k, t) :: (ys ++ [(j, s)])).drop ((xs' ++ (k, t) :: ys).length + 1 - cap) := by
            refine (if_neg hj).trans ?_
            rw [List.append_assoc, List.cons_append]
          have hnew : ∀ y ∈ ys ++ [(j, s)], y.1 ∈ inserts cap ttl (xs ++ [(k, t)]) (es ++ [(s, .offer j)]) := by
            intro y hy
            rcases List.mem_append.mp hy with hy | hy
            · exact hold y hy
            · obtain rfl := List.mem_singleton.mp hy
              rw [hins, taken, if_neg hj]
              exact List.mem_append_right _ (List.mem_singleton_self j)
          rw [hstep]
          by_cases hm : (xs' ++ (k, t) :: ys).length + 1 - cap ≤ xs'.length
          · refine .inl ⟨_, ys ++ [(j, s)], List.drop_append_of_le_length hm, hnew⟩
          · -- The keys behind `k` fill the queue.
            refine .inr (.inl ⟨(ys ++ [(j, s)]).map Prod.fst, ?_, ?_, ?_⟩)
            · have hnodup := (hq.run ttl es).nodup
              rw [heq, List.map_append, List.map_cons] at hnodup
              have hys := (List.nodup_append.mp hnodup).2.1
              rw [List.map_append]
              refine (List.nodup_cons.mp hys).2.append (List.nodup_singleton j) (List.disjoint_singleton.mpr ?_)
              intro hmem
              exact hj (by rw [List.map_append, List.map_cons]; simp [hmem])
            · rw [List.length_append, List.length_cons] at hm
              rw [List.length_map, List.length_append, List.length_singleton]
              omega
            · intro x hx
              obtain ⟨y, hy, rfl⟩ := List.mem_map.mp hx
              refine ⟨?_, hnew y hy⟩
              rintro rfl
              rcases List.mem_append.mp hy with hy | hy
              · have hnodup := (hq.run ttl es).nodup
                rw [heq, List.map_append, List.map_cons] at hnodup
                exact (List.nodup_cons.mp (List.nodup_append.mp hnodup).2.1).1 (List.mem_map.mpr ⟨y, hy, rfl⟩)
              · obtain rfl := List.mem_singleton.mp hy
                exact hj (by simp)
    · exact .inr (hp.append [e])

theorem forgotten_passed (hq : Bounded cap q) {e : ℤ × Op κ} (he : taken q e.2 = some k)
    (hk : k ∉ (es.foldl (step cap ttl) (step cap ttl q e)).map Prod.fst) :
    Passed cap ttl k e.1 (step cap ttl q e) es := by
  obtain ⟨s, o⟩ := e
  cases o with
  | sweep => cases he
  | offer j =>
    have hj : j ∉ q.map Prod.fst := by
      intro hj
      simp [taken, hj] at he
    obtain rfl : j = k := by simpa [taken, hj] using he
    have hstep : step cap ttl q (s, .offer j) = (q ++ [(j, s)]).drop (q.length + 1 - cap) := if_neg hj
    by_cases hcap : cap = 0
    · subst hcap
      exact .inl ⟨[], List.nodup_nil, Nat.zero_le _, nofun⟩
    · have hdrop : step cap ttl q (s, .offer j) = q.drop (q.length + 1 - cap) ++ [(j, s)] := by
        rw [hstep]
        exact List.drop_append_of_le_length (by omega)
      have hb := hq.step ttl (s, .offer j)
      rw [hdrop] at hb hk ⊢
      refine (kept_or_passed hb es).resolve_left ?_
      rintro ⟨xs', ys, heq, -⟩
      rw [heq] at hk
      exact hk (by simp)

end Multimaster.Recent
