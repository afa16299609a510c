import Multimaster.Basis.Leads
import Multimaster.Mesh.Stopping

/-! What the threads have left to do before `stop()` returns, and which steps bring it nearer. -/

namespace Multimaster

def IoThread.owes {ι : Type} : IoThread → Option (MeshStep ι)
  | .dispatching _ => some .next
  | .draining _ => some .readWake
  | .swapping _ => some .swapMailbox
  | .processing .. => some .process
  | .stopping _ => some .stopLoop
  | .timers => some .again
  | .waiting | .exited => none

def IoThread.ahead : IoThread → ℕ
  | .processing cmds _ rest => cmds.length + rest.length + 4
  | .stopping rest => rest.length + 3
  | .dispatching rest => rest.length + 2
  | .timers => 1
  | .waiting | .draining _ | .swapping _ | .exited => 0

def Caller.ahead : Caller → ℕ
  | .idle => 0
  | .posting _ => 2
  | .waking _ => 1

namespace MeshImpl

variable {ι : Type} {S : Suite} {s : MeshImpl ι S} {env : Env S} {a : MeshStep ι}

def Pending (s : MeshImpl ι S) : Prop := ∃ x ∈ s.mailbox, x.2 = .stop

def Batched (s : MeshImpl ι S) : Prop :=
  ∃ cmds flag rest, s.io = .processing cmds flag rest ∧ (flag = true ∨ ∃ x ∈ cmds, x.2 = .stop)

lemma Stops.place (hs : Stops s) (hc : Consistent s) {t : ℕ} (hposted : (t, Command.stop) ∈ s.posted)
    (hret : t ∈ s.returned) :
    s.looping = false ∨ s.Batched ∨ s.Pending ∧ (0 < s.wake ∨ s.io.draws = true) := by
  rw [hc.ledger] at hposted
  rcases List.mem_append.mp hposted with hfirst | hmail
  · rcases List.mem_append.mp hfirst with hproc | hbatch
    · rcases hs.done _ hproc rfl with h | ⟨cmds, rest, hio⟩
      · exact .inl h
      · exact .inr (.inl ⟨cmds, true, rest, hio, .inl rfl⟩)
    · cases hio : s.io with
      | processing cmds flag rest =>
        rw [hio] at hbatch
        exact .inr (.inl ⟨cmds, flag, rest, hio, .inr ⟨_, hbatch, rfl⟩⟩)
      | _ =>
        rw [hio] at hbatch
        cases hbatch
  · exact .inr (.inr ⟨⟨_, hmail, rfl⟩, hc.awake _ hmail hret⟩)

structure Drawing (s : MeshImpl ι S) : Prop where
  refused : s.running = false
  draws : s.io.draws = true
  pending : s.Pending

lemma Drawing.owes (h : Drawing s) : (∃ rest, s.io = .draining rest ∧ s.io.owes (ι := ι) = some .readWake) ∨
    ∃ rest, s.io = .swapping rest ∧ s.io.owes (ι := ι) = some .swapMailbox := by
  have hd := h.draws
  cases hio : s.io with
  | draining rest => exact .inl ⟨rest, rfl, rfl⟩
  | swapping rest => exact .inr ⟨rest, rfl, rfl⟩
  | waiting | dispatching | processing | stopping | timers | exited =>
    rw [hio] at hd
    cases hd

section Steps

variable [DecidableEq ι]

lemma stepMesh_elsewhere (env : Env S) (hw : s.io ≠ .waiting) (ha : s.io.owes ≠ some a) :
    (stepMesh env s a).io = s.io ∧ (stepMesh env s a).looping = s.looping ∧
      s.mailbox <+: (stepMesh env s a).mailbox := by
  cases a with
  | push i =>
    simp only [stepMesh]
    split
    · exact ⟨rfl, rfl, List.prefix_append _ _⟩
    · exact ⟨rfl, rfl, List.prefix_rfl⟩
  | broadcast | send | stop | wakeup =>
    simp only [stepMesh]
    repeat' split
    all_goals exact ⟨rfl, rfl, List.prefix_rfl⟩
  | epollWait | epollFailed | next | readWake | swapMailbox | process | stopLoop | fire | again =>
    cases hio : s.io <;> simp_all [stepMesh, dispatchNext, processNext, IoThread.owes]

lemma stepMesh_returned (env : Env S) (a : MeshStep ι) (s : MeshImpl ι S) :
    s.returned <+: (stepMesh env s a).returned := by
  cases a with
  | wakeup i =>
    simp only [stepMesh]
    split
    · exact List.prefix_append _ _
    · exact List.prefix_rfl
  | _ =>
    simp only [stepMesh, dispatchNext, processNext]
    repeat' split
    all_goals exact List.prefix_rfl

lemma stepMesh_running (env : Env S) (a : MeshStep ι) (h : s.running = false) : (stepMesh env s a).running = false := by
  cases a with
  | stop i =>
    simp only [stepMesh, h]
    split <;> exact h
  | _ =>
    simp only [stepMesh, dispatchNext, processNext]
    repeat' split
    all_goals exact h

lemma stepMesh_ahead (env : Env S) (hd : s.io.draws = false) (ha : s.io.owes = some a) :
    (stepMesh env s a).io.owes (ι := ι) = none ∨ (stepMesh env s a).io.draws = true ∨
      (stepMesh env s a).io.ahead < s.io.ahead := by
  cases hio : s.io with
  | waiting | exited =>
    rw [hio] at ha
    cases ha
  | draining | swapping =>
    rw [hio] at hd
    cases hd
  | dispatching rest =>
    rw [hio] at ha
    cases ha
    cases rest with
    | nil => simp [stepMesh, dispatchNext, hio, IoThread.ahead]
    | cons r rest =>
      cases hl : s.looping with
      | false => simp [stepMesh, dispatchNext, hio, hl, IoThread.ahead]
      | true => cases r <;> simp [stepMesh, dispatchNext, hio, hl, IoThread.ahead, IoThread.draws]
  | processing cmds flag rest =>
    rw [hio] at ha
    cases ha
    cases cmds with
    | nil => cases flag <;> simp [stepMesh, processNext, hio, IoThread.ahead]
    | cons x cmds => simp [stepMesh, processNext, hio, IoThread.ahead]
  | stopping rest =>
    rw [hio] at ha
    cases ha
    simp [stepMesh, hio, IoThread.ahead]
  | timers =>
    rw [hio] at ha
    cases ha
    cases hl : s.looping <;> simp [stepMesh, hio, hl, IoThread.owes]

lemma stepMesh_batched (hs : s.Batched) : (stepMesh env s .process).looping = false ∨
    (stepMesh env s .process).Batched ∧ (stepMesh env s .process).io.ahead < s.io.ahead := by
  obtain ⟨cmds, flag, rest, hio, hstop⟩ := hs
  cases cmds with
  | nil =>
    rcases hstop with rfl | ⟨x, hx, -⟩
    · simp [stepMesh, processNext, hio]
    · cases hx
  | cons x cmds =>
    refine .inr ⟨⟨cmds, flag || x.2 == .stop, rest, ?_, ?_⟩, ?_⟩
    · simp [stepMesh, processNext, hio]
    · rcases hstop with rfl | ⟨y, hy, hstop⟩
      · exact .inl rfl
      · rcases List.mem_cons.mp hy with rfl | hy
        · simp [hstop]
        · exact .inr ⟨y, hy, hstop⟩
    · simp [stepMesh, processNext, hio, IoThread.ahead]

lemma stepMesh_dispatching (env : Env S) {rest : List Readiness} (hl : s.looping = true)
    (hio : s.io = .dispatching rest)
    (hr : .wake ∈ rest) : (stepMesh env s .next).mailbox = s.mailbox ∧ ((stepMesh env s .next).io.draws = true ∨
      (stepMesh env s .next).looping = true ∧ ∃ rest', (stepMesh env s .next).io = .dispatching rest' ∧ .wake ∈ rest' ∧
        (stepMesh env s .next).io.ahead < s.io.ahead) := by
  cases rest with
  | nil => cases hr
  | cons r rest =>
    cases r with
    | wake => simp [stepMesh, dispatchNext, hio, hl, IoThread.draws]
    | handler e =>
      have hrest : .wake ∈ rest := (List.mem_cons.mp hr).resolve_left Readiness.noConfusion
      simp [stepMesh, dispatchNext, hio, hl, hrest, IoThread.ahead]

section Clog

variable [Fintype ι]

def clog (s : MeshImpl ι S) : ℕ := 2 * ∑ i, (s.caller i).ahead + if 0 < s.wake then 1 else 0

lemma clog_of_caller {s' : MeshImpl ι S} {i : ι} {c : Caller} (h : s'.caller = Function.update s.caller i c)
    (hlt : c.ahead < (s.caller i).ahead) : s'.clog ≤ s.clog := by
  have hi := Finset.mem_univ i
  have hrest : ∑ j ∈ Finset.univ.erase i, (s'.caller j).ahead = ∑ j ∈ Finset.univ.erase i, (s.caller j).ahead :=
    Finset.sum_congr rfl fun j hj => by simp [h, Finset.ne_of_mem_erase hj]
  have hself : (s'.caller i).ahead = c.ahead := by simp [h]
  have hsum : ∑ j, (s'.caller j).ahead < ∑ j, (s.caller j).ahead := by
    rw [← Finset.add_sum_erase _ _ hi, ← Finset.add_sum_erase _ (fun j => (s.caller j).ahead) hi, hrest, hself]
    exact Nat.add_lt_add_right hlt _
  unfold clog
  split_ifs <;> omega

lemma stepMesh_clog (env : Env S) (hrun : s.running = false) {rest : List Readiness} (hio : s.io = .draining rest)
    (a : MeshStep ι) : (stepMesh env s a).clog ≤ s.clog := by
  cases a with
  | broadcast | send | stop =>
    simp only [stepMesh, hrun]
    split <;> exact le_rfl
  | push i =>
    simp only [stepMesh]
    split
    · next c hi => exact clog_of_caller rfl (by rw [hi]; exact Nat.lt_succ_self _)
    · exact le_rfl
  | wakeup i =>
    simp only [stepMesh]
    split
    · next t hi => exact clog_of_caller rfl (by rw [hi]; exact Nat.lt_succ_self _)
    · exact le_rfl
  | readWake =>
    simp only [stepMesh, hio]
    split_ifs with hw
    · simp [clog, hw]
    · exact le_rfl
  | epollWait | epollFailed | next | swapMailbox | process | stopLoop | fire | again =>
    simp [stepMesh, dispatchNext, processNext, hio]

def drainAhead (s : MeshImpl ι S) : ℕ :=
  match s.io with
  | .draining _ => s.clog + 1
  | _ => 0

lemma Drawing.elsewhere (h : Drawing s) (ha : s.io.owes ≠ some a) :
    Drawing (stepMesh env s a) ∧ (stepMesh env s a).drainAhead ≤ s.drainAhead := by
  have hw : s.io ≠ .waiting := by
    intro hio
    have hd := h.draws
    rw [hio] at hd
    cases hd
  obtain ⟨hio, -, hmail⟩ := stepMesh_elsewhere env hw ha
  obtain ⟨x, hx, hstop⟩ := h.pending
  refine ⟨⟨stepMesh_running env a h.refused, by rw [hio]; exact h.draws, ⟨x, hmail.subset hx, hstop⟩⟩, ?_⟩
  rcases h.owes with ⟨rest, hd, -⟩ | ⟨rest, hd, -⟩
  · have hclog := stepMesh_clog env h.refused hd a
    simp only [drainAhead, hio, hd]
    omega
  · simp [drainAhead, hio, hd]

lemma Drawing.next (h : Drawing s) (ha : s.io.owes = some a) : (stepMesh env s a).Batched ∨
    Drawing (stepMesh env s a) ∧ (stepMesh env s a).drainAhead < s.drainAhead := by
  rcases h.owes with ⟨rest, hio, ho⟩ | ⟨rest, hio, ho⟩
  · cases Option.some.inj (ho.symm.trans ha)
    right
    by_cases hw : 0 < s.wake
    · have hstep : stepMesh env s .readWake = { s with wake := 0 } := by simp [stepMesh, hio, hw]
      rw [hstep]
      refine ⟨⟨h.refused, h.draws, h.pending⟩, ?_⟩
      simp [drainAhead, hio, clog, hw]
    · have hstep : stepMesh env s .readWake = { s with io := .swapping rest } := by simp [stepMesh, hio, hw]
      rw [hstep]
      refine ⟨⟨h.refused, rfl, h.pending⟩, ?_⟩
      simp [drainAhead, hio]
  · cases Option.some.inj (ho.symm.trans ha)
    left
    have hstep : stepMesh env s .swapMailbox = { s with io := .processing s.mailbox false rest, mailbox := [] } := by
      simp [stepMesh, hio]
    rw [hstep]
    exact ⟨s.mailbox, false, rest, rfl, .inr h.pending⟩

end Clog

/-- The mesh after the first `k` steps of an infinite run. -/
def during (env : Env S) (σ : ℕ → MeshStep ι) (k : ℕ) : MeshImpl ι S := runMesh env ((List.range k).map σ)

lemma during_succ (env : Env S) (σ : ℕ → MeshStep ι) (k : ℕ) :
    during env σ (k + 1) = stepMesh env (during env σ k) (σ k) := by
  simp [during, runMesh, List.range_succ]

/-- The environment keeps no thread waiting for ever. `runs`: the IO thread is scheduled, the handlers, the callbacks
and `fire_due_timers` return. `reports`: `epoll_wait` does not withhold the eventfd as long as it is readable. -/
structure Fair (env : Env S) (σ : ℕ → MeshStep ι) : Prop where
  runs : ∀ k, (during env σ k).io.owes (ι := ι) ≠ none → ∃ j ≥ k, (during env σ j).io.owes = some (σ j)
  reports : ∀ k, (∀ j ≥ k, 0 < (during env σ j).wake) → (∀ j ≥ k, ∃ i ≥ j, (during env σ i).io = .waiting) →
    ∃ j ≥ k, ∃ ready, (during env σ j).io = .waiting ∧ σ j = .epollWait ready ∧ .wake ∈ ready

end Steps

end MeshImpl

end Multimaster
