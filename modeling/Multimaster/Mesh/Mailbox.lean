import Multimaster.Mesh.MeshImpl

/-! No command is lost and none is performed twice, however the threads interleave. -/

namespace Multimaster

namespace MeshImpl

variable {ι : Type} {S : Suite} {s s' : MeshImpl ι S}

section Steps

variable [DecidableEq ι]

lemma Consistent.enter (hs : Consistent s) (i : ι) (c : Command) (running : Bool) :
    Consistent ({ s with running := running }.setCaller i (.posting c)) := by
  refine hs.of_step rfl rfl rfl ?_ ?_
  · intro j t h
    by_cases hj : j = i
    · simp [setCaller, hj] at h
    · simpa [setCaller, hj] using h
  · exact hs.awake

lemma Consistent.push (hs : Consistent s) (i : ι) (c : Command) :
    Consistent ({ s with
      mailbox := s.mailbox ++ [(s.posted.length, c)]
      posted := s.posted ++ [(s.posted.length, c)] }.setCaller i (.waking s.posted.length)) where
  ledger := by
    change s.posted ++ [(s.posted.length, c)] = s.processed ++ s.io.batch ++ (s.mailbox ++ [(s.posted.length, c)])
    rw [← List.append_assoc, ← hs.ledger]
  tickets := by
    change (s.posted ++ [(s.posted.length, c)]).map Prod.fst = List.range (s.posted ++ [(s.posted.length, c)]).length
    simp [List.range_succ, hs.tickets]
  waking j t h := by
    change t < (s.posted ++ [(s.posted.length, c)]).length
    rw [List.length_append, List.length_singleton]
    by_cases hj : j = i
    · have ht : s.posted.length = t := by simpa [setCaller, hj] using h
      omega
    · have ht := hs.waking j t (by simpa [setCaller, hj] using h)
      omega
  returned t ht := by
    change t < (s.posted ++ [(s.posted.length, c)]).length
    have := hs.returned t ht
    rw [List.length_append]
    omega
  awake x hx hret := by
    rcases List.mem_append.mp hx with hold | hnew
    · exact hs.awake x hold hret
    · have hlt := hs.returned x.1 hret
      rw [List.mem_singleton.mp hnew] at hlt
      exact absurd hlt (Nat.lt_irrefl _)

lemma Consistent.wakeup (hs : Consistent s) {i : ι} {t : ℕ} (hi : s.caller i = .waking t) :
    Consistent ({ s with wake := signal s.wake, returned := s.returned ++ [t] }.setCaller i .idle) where
  ledger := hs.ledger
  tickets := hs.tickets
  waking j u h := by
    by_cases hj : j = i
    · simp [setCaller, hj] at h
    · exact hs.waking j u (by simpa [setCaller, hj] using h)
  returned u hu := by
    rcases List.mem_append.mp hu with hold | hnew
    · exact hs.returned u hold
    · rw [List.mem_singleton.mp hnew]
      exact hs.waking i t hi
  awake _ _ _ := .inl (signal_pos s.wake)

lemma stepMesh_consistent (env : Env S) (a : MeshStep ι) (hs : Consistent s) : Consistent (stepMesh env s a) := by
  cases a with
  | broadcast i payload =>
    simp only [stepMesh]
    repeat' split
    · exact hs.enter i _ s.running
    all_goals exact hs
  | send i dst payload =>
    simp only [stepMesh]
    repeat' split
    · exact hs.enter i _ s.running
    all_goals exact hs
  | stop i =>
    simp only [stepMesh]
    repeat' split
    · exact hs.enter i _ false
    all_goals exact hs
  | push i =>
    simp only [stepMesh]
    split
    · exact hs.push i _
    · exact hs
  | wakeup i =>
    simp only [stepMesh]
    split
    · rename_i t hi
      exact hs.wakeup hi
    · exact hs
  | epollWait ready =>
    simp only [stepMesh]
    split
    · rename_i hio
      split
      · exact hs
      · exact hs.of_io (.dispatching ready) s.node s.looping (by rw [hio]; rfl) (by rw [hio]; exact id)
    · exact hs
  | epollFailed =>
    simp only [stepMesh]
    split
    · rename_i hio
      exact hs.of_io .exited s.node s.looping (by rw [hio]; rfl) (by rw [hio]; exact id)
    · exact hs
  | next => exact dispatchNext_consistent env hs
  | readWake =>
    simp only [stepMesh]
    split
    · rename_i rest hio
      exact readWake_consistent hs hio
    · exact hs
  | swapMailbox =>
    simp only [stepMesh]
    split
    · rename_i rest hio
      exact swapMailbox_consistent hs hio
    · exact hs
  | process => exact processNext_consistent env hs
  | stopLoop =>
    simp only [stepMesh]
    split
    · rename_i rest hio
      refine hs.of_step rfl rfl ?_ ?_ ?_
      · simp [hio, IoThread.batch]
      · intro i t h
        exact h
      · intro x _ _
        exact .inl (signal_pos s.wake)
    · exact hs
  | fire e =>
    simp only [stepMesh]
    split
    · exact hs.of_io s.io _ s.looping rfl id
    · exact hs
  | again =>
    simp only [stepMesh]
    split
    · rename_i hio
      refine hs.of_io (if s.looping then .waiting else .exited) s.node s.looping ?_ ?_
      · cases s.looping <;> rw [hio] <;> rfl
      · rw [hio]
        intro h
        cases h
    · exact hs

lemma stepMesh_grows (env : Env S) (a : MeshStep ι) (s : MeshImpl ι S) :
    s.posted <+: (stepMesh env s a).posted ∧ s.processed <+: (stepMesh env s a).processed := by
  cases a with
  | push i =>
    simp only [stepMesh]
    split
    · exact ⟨List.prefix_append _ _, List.prefix_rfl⟩
    · exact ⟨List.prefix_rfl, List.prefix_rfl⟩
  | process =>
    simp only [stepMesh, processNext]
    split
    · exact ⟨List.prefix_rfl, List.prefix_append _ _⟩
    all_goals exact ⟨List.prefix_rfl, List.prefix_rfl⟩
  | next =>
    simp only [stepMesh, dispatchNext]
    repeat' split
    all_goals exact ⟨List.prefix_rfl, List.prefix_rfl⟩
  | _ =>
    simp only [stepMesh]
    repeat' split
    all_goals exact ⟨List.prefix_rfl, List.prefix_rfl⟩

lemma foldl_grows (env : Env S) (steps : List (MeshStep ι)) (s : MeshImpl ι S) :
    s.posted <+: (steps.foldl (stepMesh env) s).posted ∧ s.processed <+: (steps.foldl (stepMesh env) s).processed := by
  induction steps generalizing s with
  | nil => exact ⟨List.prefix_rfl, List.prefix_rfl⟩
  | cons a steps ih =>
    have hstep := stepMesh_grows env a s
    have hrest := ih (stepMesh env s a)
    exact ⟨hstep.1.trans hrest.1, hstep.2.trans hrest.2⟩

lemma foldl_consistent (env : Env S) (steps : List (MeshStep ι)) (hs : Consistent s) :
    Consistent (steps.foldl (stepMesh env) s) := by
  induction steps generalizing s with
  | nil => exact hs
  | cons a steps ih => exact ih (stepMesh_consistent env a hs)

lemma runMesh_consistent (env : Env S) (steps : List (MeshStep ι)) : Consistent (runMesh env steps) := by
  apply foldl_consistent
  constructor
  · rfl
  · rfl
  · intro i t h
    cases h
  · intro t h
    cases h
  · intro x h
    cases h

theorem no_command_lost (env : Env S) (steps more : List (MeshStep ι)) :
    (runMesh env steps).posted =
      (runMesh env steps).processed ++ (runMesh env steps).io.batch ++ (runMesh env steps).mailbox ∧
    (runMesh env steps).posted.Nodup ∧
    (runMesh env steps).posted <+: (runMesh env (steps ++ more)).posted ∧
    (runMesh env steps).processed <+: (runMesh env (steps ++ more)).processed ∧
    ((runMesh env steps).io = .waiting →
      (∃ x ∈ (runMesh env steps).mailbox, x.1 ∈ (runMesh env steps).returned) → 0 < (runMesh env steps).wake) := by
  have hs := runMesh_consistent env steps
  have hgrows := foldl_grows env more (runMesh env steps)
  rw [runMesh, ← List.foldl_append] at hgrows
  refine ⟨hs.ledger, ?_, hgrows.1, hgrows.2, ?_⟩
  · apply List.Nodup.of_map Prod.fst
    rw [hs.tickets]
    exact List.nodup_range
  · rintro hio ⟨x, hx, hret⟩
    apply (hs.awake x hx hret).resolve_right
    rw [hio]
    exact Bool.false_ne_true

end Steps

end MeshImpl

end Multimaster
