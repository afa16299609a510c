import Multimaster.EventLoop.TimerQueue

/-! What holds of the timer queue and its log after every call. -/

namespace Multimaster

variable {α : Type}

namespace TimerQueue

def idOf (serial : ℕ) : UInt64 := 1 + UInt64.ofNat serial

lemma idOf_injective {i j : ℕ} (hi : i < 2 ^ 64) (hj : j < 2 ^ 64) (h : idOf i = idOf j) : i = j := by
  have h := congrArg UInt64.toNat ((UInt64.add_right_inj 1).mp h)
  rwa [UInt64.toNat_ofNat_of_lt' hi, UInt64.toNat_ofNat_of_lt' hj] at h

structure Sound (C : Clockwork α) (q : TimerQueue α) : Prop where
  sorted : q.timers.Pairwise Timer.Before
  pending : ∀ t, t ∈ q.timers ↔ Pending q.log t
  serial : ∀ t, .added t ∈ q.log → t.serial < q.added ∧ t.id = idOf t.serial
  unique : ∀ t u, .added t ∈ q.log → .added u ∈ q.log → t.serial = u.serial → t = u
  nextId : q.nextTimerId = idOf q.added
  taken : ∀ x ∈ q.log, ∀ i, x.takes = some i → i < q.added
  turned : Precedented (fun l e => ∀ t r, e = .ran t r → InTurn C l t r) q.log
  -- a timer may be cancelled before it is added
  cancelled : q.added ≤ 2 ^ 64 → ∀ i < 2 ^ 64, (∀ x ∈ q.log, x.takes ≠ some i) → .cancelled (idOf i) ∈ q.log →
    idOf i ∈ q.cancelled
  heeded : q.added ≤ 2 ^ 64 → Precedented (fun l e => ∀ t r, e = .ran t r → .cancelled t.id ∉ l) q.log

variable {C : Clockwork α} {q : TimerQueue α}

lemma pending_append {l : List (TimerNote α)} {t : Timer α} {x : TimerNote α} (hx : ∀ u, x ≠ .added u) :
    Pending (l ++ [x]) t ↔ Pending l t ∧ x.takes ≠ some t.serial := by
  simp only [Pending, List.mem_append, List.mem_singleton, or_imp, forall_and, forall_eq, (hx t).symm, or_false,
    and_assoc]

lemma sorted_insert {l : List (Timer α)} {t : Timer α} (hl : l.Pairwise Timer.Before)
    (ht : ∀ u ∈ l, u.serial < t.serial) :
    (l.orderedInsert (fun a b => a.due < b.due) t).Pairwise Timer.Before := by
  induction l with
  | nil => exact List.pairwise_singleton ..
  | cons u l ih =>
    obtain ⟨hu, hl'⟩ := List.pairwise_cons.mp hl
    rw [List.orderedInsert]
    split_ifs with hlt
    · refine List.pairwise_cons.mpr ⟨fun v hv => .inl ?_, hl⟩
      rcases List.mem_cons.mp hv with rfl | hv
      · exact hlt
      · rcases hu v hv with h | h
        · exact hlt.trans h
        · exact hlt.trans_eq h.1
    · refine List.pairwise_cons.mpr ⟨fun v hv => ?_, ih hl' fun v hv => ht v (List.mem_cons_of_mem _ hv)⟩
      rcases List.mem_cons.mp ((List.perm_orderedInsert ..).mem_iff.mp hv) with rfl | hv
      · rcases (not_lt.mp hlt).lt_or_eq with h | h
        · exact .inl h
        · exact .inr ⟨h, ht u List.mem_cons_self⟩
      · exact hu v hv

namespace Sound

lemma initial (C : Clockwork α) : Sound C {} where
  sorted := .nil
  pending t := by simp [Pending]
  serial t h := by simp at h
  unique t u h := by simp at h
  nextId := rfl
  taken x h := by simp at h
  turned := .nil
  cancelled _ i _ _ h := by simp at h
  heeded _ := .nil

lemma tick (h : Sound C q) : Sound C { q with reads := q.reads + 1 } := ⟨h.1, h.2, h.3, h.4, h.5, h.6, h.7, h.8, h.9⟩

lemma addTimer (h : Sound C q) (delay : ℤ) (cb : Option α) : Sound C (addTimer C delay cb q) := by
  let t : Timer α := { due := C.clock q.reads + delay, id := q.nextTimerId, cb, serial := q.added }
  have hadd (u : Timer α) : .added u ∈ q.log ++ [.added t] ↔ .added u ∈ q.log ∨ u = t := by simp
  have hpend (u : Timer α) : Pending (q.log ++ [.added t]) u ↔ u = t ∨ Pending q.log u := by
    simp only [Pending, hadd, List.mem_append, List.mem_singleton, or_imp, forall_and, forall_eq, TimerNote.takes]
    constructor
    · rintro ⟨hu | rfl, hx, -⟩
      · exact .inr ⟨hu, hx⟩
      · exact .inl rfl
    · rintro (rfl | ⟨hu, hx⟩)
      · exact ⟨.inr rfl, fun x hx hs => (h.taken x hx _ hs).false, by simp⟩
      · exact ⟨.inl hu, hx, by simp⟩
  have hfresh (u : Timer α) (hu : .added u ∈ q.log) : u.serial ≠ q.added := (h.serial u hu).1.ne
  exact {
    sorted := sorted_insert h.sorted fun u hu => (h.serial u ((h.pending u).mp hu).1).1
    pending := fun u => by
      refine Iff.trans ?_ (hpend u).symm
      rw [← h.pending]
      exact (List.perm_orderedInsert ..).mem_iff.trans List.mem_cons
    serial := fun u hu => by
      rcases (hadd u).mp hu with hu | rfl
      · exact ⟨Nat.lt_succ_of_lt (h.serial u hu).1, (h.serial u hu).2⟩
      · exact ⟨Nat.lt_succ_self _, h.nextId⟩
    unique := fun u v hu hv huv => by
      rcases (hadd u).mp hu with hu | rfl <;> rcases (hadd v).mp hv with hv | rfl
      · exact h.unique u v hu hv huv
      · exact absurd huv (hfresh u hu)
      · exact absurd huv.symm (hfresh v hv)
      · rfl
    nextId := by
      change q.nextTimerId + 1 = _
      rw [h.nextId, idOf, UInt64.add_assoc]
      exact congrArg _ (UInt64.ofNat_add q.added 1).symm
    taken := fun x hx i hi => by
      rcases List.mem_append.mp hx with hx | hx
      · exact Nat.lt_succ_of_lt (h.taken x hx i hi)
      · rw [List.mem_singleton.mp hx] at hi
        cases hi
    turned := h.turned.snoc fun u r he => by cases he
    cancelled := fun hn i hi hx hc => by
      refine h.cancelled (Nat.le_of_succ_le hn) i hi (fun x hx' => hx x (List.mem_append_left _ hx')) ?_
      exact (List.mem_append.mp hc).resolve_right (by simp)
    heeded := fun hn => (h.heeded (Nat.le_of_succ_le hn)).snoc fun u r he => by cases he }

lemma cancelTimer (h : Sound C q) (id : UInt64) : Sound C (cancelTimer id q) where
  sorted := h.sorted
  pending t := by
    rw [TimerQueue.cancelTimer, pending_append fun u => by simp, ← h.pending]
    simp [TimerNote.takes]
  serial t ht := h.serial t (by simpa [TimerQueue.cancelTimer] using ht)
  unique t u ht hu := h.unique t u (by simpa [TimerQueue.cancelTimer] using ht)
    (by simpa [TimerQueue.cancelTimer] using hu)
  nextId := h.nextId
  taken x hx := by
    rcases List.mem_append.mp hx with hx | hx
    · exact h.taken x hx
    · rw [List.mem_singleton.mp hx]
      simp [TimerNote.takes]
  turned := h.turned.snoc fun t r he => by cases he
  cancelled hn i hi hx hc := by
    rcases List.mem_append.mp hc with hc | hc
    · exact Finset.mem_insert_of_mem (h.cancelled hn i hi (fun x hx' => hx x (List.mem_append_left _ hx')) hc)
    · have hid : idOf i = id := by simpa using hc
      rw [hid]
      exact Finset.mem_insert_self ..
  heeded hn := (h.heeded hn).snoc fun t r he => by cases he

lemma calls (h : Sound C q) (cs : List (TimerCall α)) : Sound C (cs.foldl (call C) q) := by
  induction cs generalizing q with
  | nil => exact h
  | cons c cs ih =>
    refine ih ?_
    cases c with
    | add delay cb => exact h.addTimer delay cb
    | cancel id => exact h.cancelTimer id

variable {t : Timer α} {ts : List (Timer α)} {x : TimerNote α}

lemma take (h : Sound C q) (ht : q.timers = t :: ts) (hx : x.takes = some t.serial)
    (hturn : ∀ u r, x = .ran u r → InTurn C q.log u r)
    (hheed : q.added ≤ 2 ^ 64 → ∀ u r, x = .ran u r → .cancelled u.id ∉ q.log) : Sound C (take x q) := by
  have hnew (u : Timer α) : x ≠ .added u := by
    rintro rfl
    cases hx
  have hnot (i : UInt64) : x ≠ .cancelled i := by
    rintro rfl
    cases hx
  obtain ⟨hfirst, hts⟩ := List.pairwise_cons.mp (ht ▸ h.sorted)
  have hmem (u : Timer α) : u ∈ q.timers ↔ u = t ∨ u ∈ ts := by rw [ht, List.mem_cons]
  have htq : .added t ∈ q.log := ((h.pending t).mp ((hmem t).mpr (.inl rfl))).1
  exact {
    sorted := by
      rw [TimerQueue.take, ht]
      exact hts
    pending := fun u => by
      rw [TimerQueue.take, pending_append hnew, ← h.pending, hmem, hx, ht]
      constructor
      · intro hu
        refine ⟨.inr hu, fun hs => ?_⟩
        have huq : .added u ∈ q.log := ((h.pending u).mp ((hmem u).mpr (.inr hu))).1
        obtain rfl := h.unique t u htq huq (Option.some.inj hs)
        rcases hfirst t hu with hlt | ⟨-, hlt⟩ <;> exact hlt.false
      · rintro ⟨rfl | hu, hs⟩
        · exact absurd rfl hs
        · exact hu
    serial := fun u hu => h.serial u ((List.mem_append.mp hu).resolve_right (by simp [(hnew u).symm]))
    unique := fun u v hu hv => h.unique u v ((List.mem_append.mp hu).resolve_right (by simp [(hnew u).symm]))
      ((List.mem_append.mp hv).resolve_right (by simp [(hnew v).symm]))
    nextId := h.nextId
    taken := fun y hy i hi => by
      rcases List.mem_append.mp hy with hy | hy
      · exact h.taken y hy i hi
      · rw [List.mem_singleton.mp hy, hx] at hi
        obtain rfl := Option.some.inj hi
        exact (h.serial t htq).1
    turned := h.turned.snoc hturn
    cancelled := fun hn i hi hy hc => h.cancelled hn i hi (fun y hy' => hy y (List.mem_append_left _ hy'))
      ((List.mem_append.mp hc).resolve_right (by simp [(hnot _).symm]))
    heeded := fun hn => (h.heeded hn).snoc (hheed hn) }

lemma forget (h : Sound C q) {i : ℕ} (hx : x ∈ q.log) (hi : x.takes = some i) :
    Sound C { q with cancelled := q.cancelled.erase (idOf i) } where
  __ := h
  cancelled hn j hj hy hc := by
    refine Finset.mem_erase.mpr ⟨fun hij => hy x hx ?_, h.cancelled hn j hj hy hc⟩
    rw [hi, idOf_injective ((h.taken x hx i hi).trans_le hn) hj hij.symm]

lemma invoke (h : Sound C q) (ht : q.timers = t :: ts) (hdue : ∃ i, q.reads = i + 1 ∧ t.due ≤ C.clock i)
    (hc : t.id ∉ q.cancelled) : Sound C (invoke C t q) := by
  have htq : Pending q.log t := (h.pending t).mp (by rw [ht]; exact List.mem_cons_self)
  unfold TimerQueue.invoke
  split
  · exact h.take ht rfl (fun u r he => by cases he) fun _ u r he => by cases he
  · refine (h.take ht rfl (fun u r he => ?_) fun hn u r he hu => hc ?_).calls _
    · obtain ⟨rfl, rfl⟩ := TimerNote.ran.inj he
      refine ⟨htq, hdue, fun v hv hs => ?_⟩
      have hv : v ∈ t :: ts := ht ▸ (h.pending v).mpr hv
      rcases List.mem_cons.mp hv with rfl | hv
      · exact absurd rfl hs
      · exact (List.pairwise_cons.mp (ht ▸ h.sorted)).1 v hv
    · obtain ⟨rfl, rfl⟩ := TimerNote.ran.inj he
      obtain ⟨hlt, hid⟩ := h.serial t htq.1
      rw [hid] at hu ⊢
      exact h.cancelled hn t.serial (hlt.trans_le hn) htq.2 hu

end Sound

structure Draining (C : Clockwork α) (w : ℤ × TimerQueue α) : Prop where
  sound : Sound C w.2
  now : ∃ i, w.2.reads = i + 1 ∧ w.1 = C.clock i

lemma fireTurn_draining {w : ℤ × TimerQueue α} (h : Draining C w) :
    (∀ v, fireTurn C w = .again v → Draining C v) ∧
      ∀ b v, fireTurn C w = .stop b v → Draining C v ∧ ∀ t ∈ v.2.timers, v.1 < t.due := by
  obtain ⟨i, hi, hnow⟩ := h.now
  unfold fireTurn
  split
  · next ht =>
    refine ⟨fun v hv => (by cases hv), fun b v hv => ?_⟩
    cases hv
    exact ⟨h, by simp [ht]⟩
  · next t ts ht =>
    split_ifs with hdue hc
    · refine ⟨fun v hv => ?_, fun b v hv => by cases hv⟩
      cases hv
      have hid : t.id = idOf t.serial :=
        (h.sound.serial t ((h.sound.pending t).mp (by rw [ht]; exact List.mem_cons_self)).1).2
      have htake : Sound C (take (.skipped t) w.2) :=
        h.sound.take ht rfl (fun u r he => by cases he) fun _ u r he => by cases he
      refine ⟨?_, i, hi, hnow⟩
      have hlog : TimerNote.skipped t ∈ (take (.skipped t) w.2).log := by simp [take]
      rw [hid]
      exact htake.forget hlog rfl
    · refine ⟨fun v hv => ?_, fun b v hv => by cases hv⟩
      cases hv
      refine ⟨(h.sound.invoke ht ⟨i, hi, ?_⟩ hc).tick, _, rfl, rfl⟩
      rw [← hnow]
      exact hdue
    · refine ⟨fun v hv => (by cases hv), fun b v hv => ?_⟩
      cases hv
      refine ⟨h, fun u hu => ?_⟩
      have hlt : w.1 < t.due := not_le.mp hdue
      rcases List.mem_cons.mp (ht ▸ hu) with rfl | hu
      · exact hlt
      · rcases (List.pairwise_cons.mp (ht ▸ h.sound.sorted)).1 u hu with hb | hb
        · exact hlt.trans hb
        · exact hlt.trans_eq hb.1

lemma fireDueTimers_spec (k : ℕ) (h : Sound C q) : Sound C (fireDueTimers C k q).2 ∧
    ((fireDueTimers C k q).1 = true → ∃ i, (fireDueTimers C k q).2.reads = i + 1 ∧
      ∀ t ∈ (fireDueTimers C k q).2.timers, C.clock i < t.due) := by
  have hstart : Draining C (C.clock q.reads, { q with reads := q.reads + 1 }) := ⟨h.tick, q.reads, rfl, rfl⟩
  let Q (b : Bool) (w : ℤ × TimerQueue α) : Prop := Draining C w ∧ (b = false → ∀ t ∈ w.2.timers, w.1 < t.due)
  have hstep (w : ℤ × TimerQueue α) (hw : Draining C w) :
      (∀ v, fireTurn C w = .again v → Draining C v) ∧ ∀ b v, fireTurn C w = .stop b v → Q b v :=
    ⟨(fireTurn_draining hw).1, fun b v hv => ⟨((fireTurn_draining hw).2 b v hv).1,
      fun _ => ((fireTurn_draining hw).2 b v hv).2⟩⟩
  have hend := turns_result (Q := Q) (fun w hw => ⟨hw, fun hb => by cases hb⟩) hstep k hstart
  refine ⟨hend.1.sound, fun hb => ?_⟩
  obtain ⟨i, hi, hnow⟩ := hend.1.now
  refine ⟨i, hi, fun t ht => ?_⟩
  rw [← hnow]
  exact hend.2 (by simpa [fireDueTimers] using hb) t ht

lemma run_sound (C : Clockwork α) (k : ℕ) (es : List (TimerEvent α)) : Sound C (run C k es).2 := by
  unfold run
  have h : Sound C (true, ({} : TimerQueue α)).2 := .initial C
  generalize (true, ({} : TimerQueue α)) = s at h
  induction es generalizing s with
  | nil => exact h
  | cons e es ih =>
    refine ih _ ?_
    unfold step
    split_ifs
    · exact h
    · split
      · next c => exact h.calls [c]
      · exact (fireDueTimers_spec k h).1

def ranSerial (n : ℕ) : TimerNote α → Bool
  | .ran t _ => t.serial = n
  | .added _ | .cancelled _ | .skipped _ => false

end TimerQueue

end Multimaster
