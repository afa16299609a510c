import Multimaster.Manager.Pacing

/-! The delay before the next dial of a peer: what `schedule_reconnect` arms, and the dials that do not wait for it. -/

namespace Multimaster

variable {S : Suite} {env : Env S} {o : Node S} {e : Option Event}

section Waiting

lemma step_pending {n : Node S} {ev : Event} {x : ℤ × TimerKind} (h : x ∈ n.timers) :
    x ∈ (step env n ev).timers ∨ ∃ i, ev = .timer i ∧ n.timers[i]? = some x := by
  refine PlanSteps.preserves (I := fun s => x ∈ s.node.timers ∨ ∃ i, ev = .timer i ∧ n.timers[i]? = some x) ?_
    (step_planSteps env n ev) (.inl h)
  intro s t ha hs
  rcases hs with hs | hs
  · have htimers := ha.timers
    generalize s.node.timers = y at hs htimers
    generalize t.node.timers = z at htimers ⊢
    cases htimers with
    | same => exact .inl hs
    | other => exact .inl (List.mem_append_left _ hs)
    | backoff => exact .inl (List.mem_append_left _ hs)
    | fired i w he hw =>
      cases he
      obtain ⟨hi, hiw⟩ := List.getElem?_eq_some_iff.mp hw
      rw [← (List.getElem_cons_eraseIdx_perm hi).mem_iff, hiw, List.mem_cons] at hs
      rcases hs with rfl | hs
      · exact .inr ⟨i, rfl, hw⟩
      · exact .inl hs
  · exact .inr hs

lemma pending_reached {es : List Event} (hm : Monotone env.oracle.clock)
    (h : Along env (fun n ev => OnTime env n ev ∧ Spaced env n ev) (started env) es) {i j : ℕ} (hij : i ≤ j)
    {x : ℤ × TimerKind} (hx : x ∈ (reached env es i).timers) :
    x ∈ (reached env es j).timers ∨ x.1 ≤ env.oracle.clock (reached env es j).pos := by
  refine reached_from (I := fun n => x ∈ n.timers ∨ x.1 ≤ env.oracle.clock n.pos) hij ?_ (.inl hx)
  intro l ev _ _ hev hl
  have later : env.oracle.clock (reached env es l).pos ≤ env.oracle.clock (step env (reached env es l) ev).pos :=
    hm (step_pos_le env _ ev)
  rcases hl with hl | hl
  · have hstep : x ∈ (step env (reached env es l) ev).timers ∨
        ∃ k, ev = .timer k ∧ (reached env es l).timers[k]? = some x := step_pending hl
    rcases hstep with hkept | ⟨k, rfl, hk⟩
    · exact .inl hkept
    · exact .inr (((along_reached h hev).1 x hk).trans later)
  · exact .inr (hl.trans later)

lemma timers_unique {n : Node S} {id : PeerId} (h : n.reconnects id ≤ 1) {d due : ℤ}
    (hd : (d, .reconnect id) ∈ n.timers) (hdue : (due, .reconnect id) ∈ n.timers) : d = due := by
  by_contra hne
  have hother : (due, TimerKind.reconnect id) ∈ n.timers.erase (d, .reconnect id) :=
    (List.mem_erase_of_ne fun heq => hne (by cases heq; rfl)).mpr hdue
  have hpos : 0 < (n.timers.erase (d, .reconnect id)).countP (·.2 = .reconnect id) :=
    List.countP_pos_iff.mpr ⟨_, hother, decide_eq_true rfl⟩
  rw [Node.reconnects, (List.perm_cons_erase hd).countP_eq, countP_reconnect_cons] at h
  omega

end Waiting

theorem backoff_kept (env : Env S) (hm : Monotone env.oracle.clock) (es : List Event)
    (h : Along env (fun n ev => OnTime env n ev ∧ Spaced env n ev) (started env) es) : BackoffKept env es where
  waits i j id due ev p hij harm hev hdial := by
    left
    have hpending : (due, TimerKind.reconnect id) ∈ (reached env es (i + 1)).timers :=
      List.count_pos_iff.mp (Nat.zero_lt_of_lt harm)
    rcases pending_reached hm h hij hpending with hstill | hover
    · obtain ⟨⟨a, n⟩, hcall, hmay⟩ := Option.bind_eq_some_iff.mp hdial
      obtain rfl : a = id := by
        split_ifs at hmay
        cases hmay
        rfl
      have hone := (paced_reached h j).one a
      have hspaced := (along_reached h hev).2
      have hsome : 0 < (reached env es j).reconnects a :=
        List.countP_pos_iff.mpr ⟨_, hstill, decide_eq_true rfl⟩
      rcases calling_cases hcall with ⟨port, ip, rfl, -⟩ | ⟨k, d, rfl, hfired, -⟩
      · exact absurd hspaced hsome.ne'
      · -- the timer that fires is the one that was armed
        rw [← timers_unique hone (List.mem_of_getElem? hfired) hstill]
        exact (along_reached h hev).1 _ hfired
    · exact hover
  one i id := (paced_reached h i).one id

def Env.ticking : Env Suite.transparent :=
  { Env.plain (Octets.fill [1]) with oracle := { Oracle.calm Suite.transparent with clock := fun j => 200 * j } }

lemma ticking_monotone : Monotone Env.ticking.oracle.clock := by
  intro i j hij
  change (200 : ℤ) * i ≤ 200 * j
  omega

def retried : List Event :=
  [.discovered (Octets.fill [2]) 5000 7, .hangup 1, .timer 3, .broadcast [], .timer 2]

theorem backoff_kept_retried : BackoffKept Env.ticking retried ∧
    (reached Env.ticking retried 2).reconnects (Octets.fill [2]) = 1 ∧
    (Event.timer 2).dialing Env.ticking (reached Env.ticking retried 4) = some (Octets.fill [2], 1) :=
  ⟨backoff_kept Env.ticking ticking_monotone retried (by decide +kernel), by decide +kernel, by decide +kernel⟩

def pestered : List Event :=
  [.discovered (Octets.fill [2]) 5000 7, .hangup 1, .discovered (Octets.fill [2]) 5000 7, .hangup 2]

theorem backoff_overridden : Along Env.ticking (OnTime Env.ticking) (started Env.ticking) pestered ∧
    (reached Env.ticking pestered 2).timers.count (2900, .reconnect (Octets.fill [2])) = 1 ∧
    (Event.discovered (Octets.fill [2]) 5000 7).dialing Env.ticking (reached Env.ticking pestered 2) =
      some (Octets.fill [2], 2) ∧
    Env.ticking.oracle.clock (reached Env.ticking pestered 2).pos = 2800 ∧
    (∀ i ≤ 4, ((reached Env.ticking pestered i).record (Octets.fill [2])).state ≠ .connected) ∧
    (reached Env.ticking pestered 4).reconnects (Octets.fill [2]) = 2 ∧ ¬BackoffKept Env.ticking pestered := by
  have htwo : (reached Env.ticking pestered 4).reconnects (Octets.fill [2]) = 2 := by decide +kernel
  refine ⟨by decide +kernel, by decide +kernel, by decide +kernel, by decide +kernel, by decide +kernel, htwo, ?_⟩
  intro h
  have hone := h.one 4 (Octets.fill [2])
  rw [htwo] at hone
  exact absurd hone (by decide)

end Multimaster
