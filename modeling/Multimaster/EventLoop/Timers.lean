import Multimaster.EventLoop.TimerSound

/-! Timers run once, in turn and not after they are cancelled, until their ids wrap around. -/

namespace Multimaster

variable {α : Type}

open TimerQueue

theorem timers_in_turn (C : Clockwork α) (hC : Monotone C.clock) (k : ℕ) (es : List (TimerEvent α)) :
    (∀ n, (run C k es).2.log.countP (ranSerial n) ≤ 1) ∧
    (∀ a t r b, (run C k es).2.log = a ++ .ran t r :: b →
      (∀ i, r ≤ i + 1 → t.due ≤ C.clock i) ∧
      (∀ u, Pending a u → u.serial ≠ t.serial → t.due < u.due ∨ t.due = u.due ∧ t.serial < u.serial) ∧
      ((run C k es).2.added ≤ 2 ^ 64 → .cancelled t.id ∉ a)) ∧
    ((run C k (es ++ [.fire])).1 = true → ∃ i, (run C k (es ++ [.fire])).2.reads = i + 1 ∧
      ∀ t, Pending (run C k (es ++ [.fire])).2.log t → C.clock i < t.due) := by
  have h := run_sound C k es
  refine ⟨fun n => ?_, fun a t r b hl => ?_, fun hb => ?_⟩
  · refine h.turned.countP_le_one fun a e he hf x hx => ?_
    cases e with
    | ran t r =>
      have hpend := (he t r rfl).pending.2 x hx
      have hn : t.serial = n := by simpa [ranSerial] using hf
      cases x with
      | ran u s =>
        have hne : u.serial ≠ t.serial := fun hs => hpend (congrArg some hs)
        simpa [ranSerial, ← hn] using hne
      | added | cancelled | skipped => rfl
    | added | cancelled | skipped => cases hf
  · have hturn := h.turned a _ b hl t r rfl
    obtain ⟨j, hj, hdue⟩ := hturn.due
    exact ⟨fun i hi => hdue.trans (hC (by omega)), hturn.first, fun hn => h.heeded hn a _ b hl t r rfl⟩
  · have hrun : run C k (es ++ [.fire]) = step C k (run C k es) .fire := List.foldl_concat ..
    have hsound := run_sound C k (es ++ [.fire])
    unfold step at hrun
    split_ifs at hrun with hs
    · rw [hrun] at hb
      simp [hb] at hs
    · rw [hrun] at hb hsound ⊢
      obtain ⟨i, hi, hleft⟩ := (fireDueTimers_spec k h).2 hb
      exact ⟨i, hi, fun t ht => hleft t ((hsound.pending t).mpr ht)⟩

def Clockwork.periodic : Clockwork Unit := ⟨fun i => i, fun _ _ => [.add 5 (some ())]⟩

theorem timers_in_turn_periodic :
    let q := run .periodic 2 [.call (.add 0 (some ())), .fire]
    q.1 = true ∧ q.2.log.countP (ranSerial 0) = 1 ∧
      ∃ i, q.2.reads = i + 1 ∧ ∀ t, Pending q.2.log t → Clockwork.periodic.clock i < t.due :=
  ⟨by decide +kernel, by decide +kernel,
    (timers_in_turn .periodic (fun _ _ h => Int.ofNat_le.mpr h) 2 [.call (.add 0 (some ()))]).2.2 (by decide +kernel)⟩

section Wrap

/-- Nothing is due before the clock has been read so often that the ids have wrapped around. -/
def Clockwork.late : Clockwork Unit := ⟨fun i => if i < 3 * 2 ^ 64 - 1 then 0 else 1, fun _ _ => []⟩

def spin : List (TimerEvent Unit) := [.call (.add 0 none), .fire]

/-- The first timer stays while all the others are fired as soon as they are added. -/
def wrapped : List (TimerEvent Unit) := .call (.add 1 (some ())) :: (List.replicate (2 ^ 64 - 1) spin).flatten

structure Spun (q : TimerQueue Unit) (n : ℕ) : Prop where
  timers : ∃ t, q.timers = [t] ∧ t.due = 1 ∧ t.id = 1
  cancelled : q.cancelled = ∅
  nextId : q.nextTimerId = 2 + UInt64.ofNat n
  reads : q.reads = 3 * n + 1

lemma late_before {i : ℕ} (h : i < 3 * 2 ^ 64 - 1) : Clockwork.late.clock i = 0 := if_pos h

lemma late_after {i : ℕ} (h : 3 * 2 ^ 64 - 1 ≤ i) : Clockwork.late.clock i = 1 := if_neg (Nat.not_lt.mpr h)

lemma late_monotone : Monotone Clockwork.late.clock := by
  intro i j hij
  unfold Clockwork.late
  dsimp only
  split_ifs <;> omega

lemma Spun.spin {q : TimerQueue Unit} {n : ℕ} (h : Spun q n) (hn : n < 2 ^ 64 - 1) :
    ∃ r, Multimaster.spin.foldl (step .late 3) (true, q) = (true, r) ∧ Spun r (n + 1) := by
  obtain ⟨t, ht, hdue, hid⟩ := h.timers
  have hreads := h.reads
  have hstart : Clockwork.late.clock q.reads = 0 := late_before (by omega)
  have hfire : Clockwork.late.clock (q.reads + 1) = 0 := late_before (by omega)
  have hagain : Clockwork.late.clock (q.reads + 1 + 1) = 0 := late_before (by omega)
  let u : Timer Unit := { due := 0, id := q.nextTimerId, cb := none, serial := q.added }
  let a : TimerQueue Unit := { q with
    timers := [u, t], nextTimerId := q.nextTimerId + 1, reads := q.reads + 1, added := q.added + 1
    log := q.log ++ [.added u] }
  have hadd : addTimer .late 0 none q = a := by
    have hins : [t].orderedInsert (fun a b => a.due < b.due) u = [u, t] := by simp [u, hdue]
    unfold addTimer
    simp only [ht, hstart, Int.add_zero]
    rw [hins]
  refine ⟨{ a with timers := [t], reads := q.reads + 3, log := a.log ++ [.skipped u] }, ?_, ?_⟩
  · change fireDueTimers .late 3 (addTimer .late 0 none q) = _
    rw [hadd]
    simp [fireDueTimers, turns, fireTurn, take, invoke, a, u, hfire, hagain, hdue, h.cancelled]
  · refine ⟨⟨t, rfl, hdue, hid⟩, h.cancelled, ?_, ?_⟩
    · change q.nextTimerId + 1 = _
      rw [h.nextId, UInt64.add_assoc]
      exact congrArg _ (UInt64.ofNat_add n 1).symm
    · change q.reads + 3 = _
      rw [h.reads]
      omega

lemma wrapped_spun : ∃ q, run .late 3 wrapped = (true, q) ∧ Spun q (2 ^ 64 - 1) := by
  have h (n : ℕ) (hn : n ≤ 2 ^ 64 - 1) : ∃ q, Spun q n ∧
      run .late 3 (.call (.add 1 (some ())) :: (List.replicate n spin).flatten) = (true, q) := by
    induction n with
    | zero => exact ⟨_, ⟨⟨_, rfl, rfl, rfl⟩, rfl, rfl, rfl⟩, rfl⟩
    | succ n ih =>
      obtain ⟨q, hs, hq⟩ := ih (by omega)
      obtain ⟨r, hr, hs⟩ := hs.spin (by omega)
      refine ⟨r, hs, ?_⟩
      rw [List.replicate_succ', List.flatten_concat, ← List.cons_append, run, List.foldl_append, ← run, hq, hr]
  obtain ⟨q, hs, hq⟩ := h _ le_rfl
  exact ⟨q, hq, hs⟩

theorem cancelled_timer_runs : Monotone Clockwork.late.clock ∧
    ∃ a t r b, (run .late 3 (wrapped ++ [.call (.add 1 (some ())), .call (.cancel 1), .fire])).2.log =
      a ++ .ran t r :: b ∧ .cancelled t.id ∈ a := by
  obtain ⟨q, hq, hs⟩ := wrapped_spun
  obtain ⟨t, ht, hdue, hid⟩ := hs.timers
  have hnext : q.nextTimerId = 1 := hs.nextId
  have hreads := hs.reads
  have hzero : Clockwork.late.clock q.reads = 0 := late_before (by omega)
  have hone : Clockwork.late.clock (q.reads + 1) = 1 := late_after (by omega)
  have hbody (r : ℕ) : Clockwork.late.body () r = [] := rfl
  let u : Timer Unit := { due := 1, id := 1, cb := some (), serial := q.added }
  have hins : q.timers.orderedInsert (fun a b => a.due < b.due) u = [t, u] := by
    rw [ht]
    simp [u, hdue]
  refine ⟨late_monotone, q.log ++ [.added u, .cancelled 1, .skipped t], u, q.reads + 2, [], ?_, by simp [u]⟩
  have hcalls : call .late (call .late q (.add 1 (some ()))) (.cancel 1) = { q with
      timers := [t, u], cancelled := {1}, nextTimerId := 2, reads := q.reads + 1, added := q.added + 1
      log := q.log ++ [.added u] ++ [.cancelled 1] } := by
    simp only [call, addTimer, cancelTimer, hnext, hs.cancelled, hzero, Int.zero_add]
    rw [hins]
    rfl
  rw [run, List.foldl_append, ← run, hq]
  change (fireDueTimers .late 3 (call .late (call .late q (.add 1 (some ()))) (.cancel 1))).2.log = _
  rw [hcalls]
  simp [fireDueTimers, turns, fireTurn, take, invoke, hone, hbody, hdue, hid, u]

end Wrap

end Multimaster
