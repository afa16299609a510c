import Multimaster.Mesh.Progress

/-! That `stop()` returns: along every fair run the IO thread gets to the end of `run()`. -/

namespace Multimaster

namespace MeshImpl

variable {ι : Type} {S : Suite} {s : MeshImpl ι S} {env : Env S} {a : MeshStep ι}

section Joining

variable [DecidableEq ι] {σ : ℕ → MeshStep ι}

lemma during_stops (ht : ∀ k, (σ k).timely) (k : ℕ) : Stops (during env σ k) := by
  apply runMesh_stops
  intro a ha
  obtain ⟨j, -, rfl⟩ := List.mem_map.mp ha
  exact ht j

lemma exited_stays (h : s.io = .exited) : (stepMesh env s a).io = .exited := by
  have hstep := stepMesh_elsewhere env (a := a) (s := s) (by rw [h]; exact IoThread.noConfusion)
    (by rw [h]; exact (Option.some_ne_none a).symm)
  exact hstep.1.trans h

lemma during_exited {j i : ℕ} (hji : j ≤ i) (h : (during env σ j).io = .exited) : (during env σ i).io = .exited := by
  induction i, hji using Nat.le_induction with
  | base => exact h
  | succ i _ ih =>
    rw [during_succ]
    exact exited_stays ih

lemma during_posted {k j t : ℕ} {c : Command} (hkj : k ≤ j) (hp : (t, c) ∈ (during env σ k).posted)
    (hr : t ∈ (during env σ k).returned) : (t, c) ∈ (during env σ j).posted ∧ t ∈ (during env σ j).returned := by
  induction j, hkj using Nat.le_induction with
  | base => exact ⟨hp, hr⟩
  | succ j _ ih =>
    rw [during_succ]
    exact ⟨(stepMesh_grows env (σ j) _).1.subset ih.1, (stepMesh_returned env (σ j) _).subset ih.2⟩

lemma Fair.pass (hf : Fair env σ) (k : ℕ) : ∃ j ≥ k, (during env σ j).io.owes (ι := ι) = none ∨
    (during env σ j).io.draws = true := by
  by_cases hk : (during env σ k).io.owes (ι := ι) = none ∨ (during env σ k).io.draws = true
  · exact ⟨k, le_rfl, hk⟩
  · refine Leads.of_rank (during env σ) (fun s => ¬(s.io.owes (ι := ι) = none ∨ s.io.draws = true))
      (fun s => s.io.owes (ι := ι) = none ∨ s.io.draws = true) (fun s => s.io.ahead)
      (fun k hk => hf.runs k fun h => hk (.inl h)) (fun k hk => ?_) (fun k hk ha => ?_) hk
    · rw [during_succ]
      by_cases ha : (during env σ k).io.owes = some (σ k)
      · rw [or_iff_not_imp_left]
        intro hn
        refine ⟨hn, ?_⟩
        rcases stepMesh_ahead env (Bool.eq_false_of_not_eq_true fun h => hk (.inr h)) ha with h | h | h
        · exact absurd (.inl h) hn
        · exact absurd (.inr h) hn
        · exact h.le
      · have hw : (during env σ k).io ≠ .waiting := fun h => hk (.inl (by rw [h]; rfl))
        obtain ⟨hio, -, -⟩ := stepMesh_elsewhere env hw ha
        rw [hio]
        exact .inr ⟨hk, le_rfl⟩
    · rw [during_succ]
      rcases stepMesh_ahead env (Bool.eq_false_of_not_eq_true fun h => hk (.inr h)) ha with h | h | h
      · exact .inl (.inl h)
      · exact .inl (.inr h)
      · exact .inr h

lemma Fair.exits_of_stopped (hf : Fair env σ) (ht : ∀ k, (σ k).timely) {k : ℕ}
    (hk : (during env σ k).looping = false) : ∃ j ≥ k, (during env σ j).io = .exited := by
  have hlater (j : ℕ) (hj : k ≤ j) : (during env σ j).looping = false := by
    induction j, hj using Nat.le_induction with
    | base => exact hk
    | succ j _ ih =>
      rw [during_succ]
      exact (stepMesh_still env (ht j) (during_stops ht j) ih).1
  obtain ⟨j, hj, h⟩ := hf.pass k
  refine ⟨j, hj, ?_⟩
  have hw := ((during_stops ht j).ended (hlater j hj)).1
  cases hio : (during env σ j).io <;> simp_all [IoThread.windsUp, IoThread.owes, IoThread.draws]

lemma Fair.exits_of_batched (hf : Fair env σ) (ht : ∀ k, (σ k).timely) {k : ℕ} (hk : (during env σ k).Batched) :
    ∃ j ≥ k, (during env σ j).io = .exited := by
  have howes {s : MeshImpl ι S} (h : s.Batched) : s.io.owes (ι := ι) = some .process := by
    obtain ⟨cmds, flag, rest, hio, -⟩ := h
    rw [hio]
    rfl
  have hstep (k : ℕ) (hk : (during env σ k).Batched) : (during env σ (k + 1)).looping = false ∨
      (during env σ (k + 1)).Batched ∧ (during env σ (k + 1)).io.ahead ≤ (during env σ k).io.ahead ∧
        ((during env σ k).io.owes = some (σ k) → (during env σ (k + 1)).io.ahead < (during env σ k).io.ahead) := by
    rw [during_succ]
    by_cases ha : (during env σ k).io.owes = some (σ k)
    · have hσ : σ k = .process := Option.some.inj (ha.symm.trans (howes hk))
      rw [hσ]
      refine (stepMesh_batched hk).imp_right fun h => ⟨h.1, h.2.le, fun _ => h.2⟩
    · have hw : (during env σ k).io ≠ .waiting := by
        intro h
        have := howes hk
        rw [h] at this
        cases this
      obtain ⟨hio, -, -⟩ := stepMesh_elsewhere env hw ha
      refine .inr ⟨?_, hio ▸ le_rfl, fun h => absurd h ha⟩
      unfold Batched
      rw [hio]
      exact hk
  obtain ⟨j, hj, hloop⟩ : ∃ j ≥ k, (during env σ j).looping = false :=
    Leads.of_rank (during env σ) Batched (fun s => s.looping = false) (fun s => s.io.ahead)
      (fun k hk => hf.runs k (by rw [howes hk]; exact Option.some_ne_none _))
      (fun k hk => (hstep k hk).imp_right fun h => ⟨h.1, h.2.1⟩)
      (fun k hk ha => (hstep k hk).imp_right fun h => h.2.2 ha) hk
  obtain ⟨i, hi, hexit⟩ := hf.exits_of_stopped ht hloop
  exact ⟨i, hi.trans' hj, hexit⟩

lemma Fair.exits_of_drawing [Fintype ι] (hf : Fair env σ) (ht : ∀ k, (σ k).timely) {k : ℕ}
    (hk : Drawing (during env σ k)) : ∃ j ≥ k, (during env σ j).io = .exited := by
  obtain ⟨j, hj, hb⟩ : ∃ j ≥ k, (during env σ j).Batched := by
    refine Leads.of_rank (during env σ) Drawing Batched drainAhead (fun k hk => hf.runs k ?_) (fun k hk => ?_)
      (fun k hk ha => ?_) hk
    · rcases hk.owes with ⟨rest, -, ho⟩ | ⟨rest, -, ho⟩ <;> simp [ho]
    · rw [during_succ]
      by_cases ha : (during env σ k).io.owes = some (σ k)
      · exact (hk.next ha).imp_right fun h => ⟨h.1, h.2.le⟩
      · exact .inr (hk.elsewhere ha)
    · rw [during_succ]
      exact (hk.next ha).imp_right And.right
  obtain ⟨i, hi, hexit⟩ := hf.exits_of_batched ht hb
  exact ⟨i, hi.trans' hj, hexit⟩

structure Reported (s : MeshImpl ι S) : Prop where
  looping : s.looping = true
  pending : s.Pending
  wake : ∃ rest, s.io = .dispatching rest ∧ .wake ∈ rest

lemma Fair.draws_of_reported (hf : Fair env σ) {k : ℕ} (hk : Reported (during env σ k)) :
    ∃ j ≥ k, (during env σ j).Pending ∧ (during env σ j).io.draws = true := by
  have hstep (k : ℕ) (hk : Reported (during env σ k)) :
      (during env σ (k + 1)).Pending ∧ (during env σ (k + 1)).io.draws = true ∨
        Reported (during env σ (k + 1)) ∧ (during env σ (k + 1)).io.ahead ≤ (during env σ k).io.ahead ∧
          ((during env σ k).io.owes = some (σ k) → (during env σ (k + 1)).io.ahead < (during env σ k).io.ahead) := by
    obtain ⟨hl, ⟨x, hx, hstop⟩, rest, hio, hr⟩ := hk
    rw [during_succ]
    by_cases ha : (during env σ k).io.owes = some (σ k)
    · have hσ : σ k = .next := by
        rw [hio] at ha
        exact (Option.some.inj ha).symm
      rw [hσ]
      obtain ⟨hmail, hnext⟩ := stepMesh_dispatching env hl hio hr
      have hp : (stepMesh env (during env σ k) .next).Pending := ⟨x, by rw [hmail]; exact hx, hstop⟩
      rcases hnext with hd | ⟨hl', rest', hio', hr', hlt⟩
      · exact .inl ⟨hp, hd⟩
      · exact .inr ⟨⟨hl', hp, rest', hio', hr'⟩, hlt.le, fun _ => hlt⟩
    · obtain ⟨hio', hl', hmail⟩ := stepMesh_elsewhere env (by rw [hio]; exact IoThread.noConfusion) ha
      refine .inr ⟨⟨hl'.trans hl, ⟨x, hmail.subset hx, hstop⟩, rest, hio'.trans hio, hr⟩, by rw [hio'],
        fun h => absurd h ha⟩
  refine Leads.of_rank (during env σ) Reported (fun s => s.Pending ∧ s.io.draws = true) (fun s => s.io.ahead)
    (fun k hk => hf.runs k ?_) (fun k hk => (hstep k hk).imp_right fun h => ⟨h.1, h.2.1⟩)
    (fun k hk ha => (hstep k hk).imp_right fun h => h.2.2 ha) hk
  obtain ⟨rest, hio, -⟩ := hk.wake
  rw [hio]
  exact Option.some_ne_none _

lemma during_reported {k : ℕ} {ready : List Readiness} (hl : (during env σ k).looping = true)
    (hp : (during env σ k).Pending) (hwake : 0 < (during env σ k).wake) (hio : (during env σ k).io = .waiting)
    (hσ : σ k = .epollWait ready) (hready : .wake ∈ ready) : Reported (during env σ (k + 1)) := by
  have hstep : stepMesh env (during env σ k) (.epollWait ready) =
      { during env σ k with io := .dispatching ready } := by
    simp [stepMesh, hio, hwake.ne']
  rw [during_succ, hσ, hstep]
  exact ⟨hl, hp, ready, rfl, hready⟩

theorem stop_joins [Fintype ι] (env : Env S) (σ : ℕ → MeshStep ι) (ht : ∀ k, (σ k).timely) (hf : Fair env σ) {k t : ℕ}
    (hposted : (t, Command.stop) ∈ (during env σ k).posted) (hret : t ∈ (during env σ k).returned) :
    ∃ j ≥ k, ∀ i ≥ j, (during env σ i).io = .exited := by
  have hlater (j : ℕ) (hj : k ≤ j) := during_posted hj hposted hret
  have hplace (j : ℕ) (hj : k ≤ j) := (during_stops ht j).place (runMesh_consistent env ((List.range j).map σ))
    (hlater j hj).1 (hlater j hj).2
  have hdraws (j : ℕ) (hj : k ≤ j) (hp : (during env σ j).Pending) (hd : (during env σ j).io.draws = true) :
      ∃ i ≥ j, (during env σ i).io = .exited := by
    refine hf.exits_of_drawing ht ⟨?_, hd, hp⟩
    cases hrun : (during env σ j).running with
    | false => rfl
    | true => exact absurd rfl (((during_stops ht j).closed hrun).1 _ (hlater j hj).1)
  obtain ⟨j, hj, hexit⟩ : ∃ j ≥ k, (during env σ j).io = .exited := by
    by_contra hnever
    have hnot (j : ℕ) (hj : k ≤ j) (h : ∃ i ≥ j, (during env σ i).io = .exited) : False := by
      obtain ⟨i, hi, hexit⟩ := h
      exact hnever ⟨i, hi.trans' hj, hexit⟩
    -- as long as it does not get there, the command waits in the mailbox and the eventfd is readable
    have hwaits (j : ℕ) (hj : k ≤ j) : (during env σ j).looping = true ∧ (during env σ j).Pending ∧
        0 < (during env σ j).wake ∧ (during env σ j).io.draws = false := by
      have hl : (during env σ j).looping = true :=
        Bool.eq_true_of_not_eq_false fun h => hnot j hj (hf.exits_of_stopped ht h)
      rcases hplace j hj with h | h | ⟨hp, h⟩
      · cases hl.symm.trans h
      · exact (hnot j hj (hf.exits_of_batched ht h)).elim
      · have hd : (during env σ j).io.draws = false :=
          Bool.eq_false_of_not_eq_true fun h => hnot j hj (hdraws j hj hp h)
        refine ⟨hl, hp, h.resolve_right fun h => ?_, hd⟩
        cases hd.symm.trans h
    have hagain (j : ℕ) (hj : k ≤ j) : ∃ i ≥ j, (during env σ i).io = .waiting := by
      obtain ⟨i, hi, h⟩ := hf.pass j
      refine ⟨i, hi, ?_⟩
      have hd := (hwaits i (hi.trans' hj)).2.2.2
      have hne : (during env σ i).io ≠ .exited := fun h => hnever ⟨i, hi.trans' hj, h⟩
      cases hio : (during env σ i).io <;> simp_all [IoThread.owes, IoThread.draws]
    obtain ⟨j, hj, ready, hio, hσ, hready⟩ := hf.reports k (fun j hj => (hwaits j hj).2.2.1) hagain
    obtain ⟨hl, hp, hwake, -⟩ := hwaits j hj
    obtain ⟨i, hi, hp, hd⟩ := hf.draws_of_reported (during_reported hl hp hwake hio hσ hready)
    have hki : k ≤ i := by omega
    exact hnot i hki (hdraws i hki hp hd)
  exact ⟨j, hj, fun i hi => during_exited hi hexit⟩

end Joining

def leaving (k : ℕ) : MeshStep Unit := ((quitting ++ draining ++ [.stopLoop, .next, .again])[k]?).getD .next

lemma leaving_fair : Fair (.plain (Octets.fill [1])) leaving := by
  have hexit (k : ℕ) (hk : 17 ≤ k) : (during (.plain (Octets.fill [1])) leaving k).io = .exited :=
    during_exited hk rfl
  refine ⟨fun k hk => ⟨k, le_rfl, ?_⟩, fun k _ h => ?_⟩
  · by_cases hlt : k < 17
    · -- every step of the IO thread is the one that it owes
      interval_cases k <;> first | rfl | exact absurd rfl hk
    · rw [hexit k (not_lt.mp hlt)] at hk
      exact absurd rfl hk
  · obtain ⟨i, hi, hio⟩ := h (17 + k) (Nat.le_add_left k 17)
    rw [hexit i (by omega)] at hio
    cases hio

theorem stop_joins_quitting : ∃ j ≥ 6, ∀ i ≥ j, (during (.plain (Octets.fill [1])) leaving i).io = .exited := by
  refine stop_joins (.plain (Octets.fill [1])) leaving (fun k => ?_) leaving_fair (t := 1) (by decide +kernel)
    (by decide +kernel)
  by_cases hlt : k < 17
  · interval_cases k <;> trivial
  · rw [leaving, List.getElem?_eq_none (not_lt.mp hlt)]
    trivial

end MeshImpl

end Multimaster
