import Multimaster.Manager.BookEvents

/-! Who owns the connection objects: the dead ones are exactly those on the list that `reap()` will free. -/

namespace Multimaster

variable {S : Suite}

def Node.reapTimers (n : Node S) : List (ℤ × TimerKind) := n.timers.filter fun t => t.2 = .reap

structure Tidy (n : Node S) (dying : List Ptr) (born : Option Ptr) : Prop where
  owned : ∀ p, (n.heap.get? p).isSome ↔ p ∈ n.conns ∨ born = some p
  conns : n.conns.Nodup
  apart : ∀ p, born = some p → p ∉ n.conns
  graves : ∀ p, Grave n p ↔ p ∈ n.reap ∨ p ∈ dying
  once : (n.reap ++ dying).Nodup
  timer : n.reapTimers.length = if n.reapScheduled then 1 else 0
  scheduled : n.reap ≠ [] → n.reapScheduled = true

namespace Tidy

variable {n m : Node S} {dying : List Ptr} {born : Option Ptr} {p : Ptr}

lemma of_estate (h : Tidy n dying born) (he : m.estate = n.estate) : Tidy m dying born := by
  have hheap := estate_field he Node.heap fun _ => rfl
  have hconns := estate_field he Node.conns fun _ => rfl
  have hreap := estate_field he Node.reap fun _ => rfl
  have hscheduled := estate_field he Node.reapScheduled fun _ => rfl
  have htimers := estate_field he Node.reapTimers fun n => by simp [Node.reapTimers, Node.estate, Node.books]
  constructor
  · rw [hheap, hconns]
    exact h.owned
  · rw [hconns]
    exact h.conns
  · rw [hconns]
    exact h.apart
  · intro p
    rw [Grave, hheap, hreap]
    exact h.graves p
  · rw [hreap]
    exact h.once
  · rw [htimers, hscheduled]
    exact h.timer
  · rw [hreap, hscheduled]
    exact h.scheduled

lemma of_aside (h : Tidy n dying born) (ha : Aside n m) : Tidy m dying born := by
  refine h.of_estate ?_
  have := congrArg (fun n : Node S =>
    { n with records := ∅, staticTargets := [], staticDialConn := ∅, notices := [] }) ha
  exact this

lemma set (h : Tidy n dying born) {d : PeerConnection S} (hd : d.dead = (n.conn p).dead) :
    Tidy (n.setConn p d) dying born := by
  refine { h with owned := fun q => ?_, graves := fun q => ?_ }
  · rw [Node.isSome_setConn]
    exact h.owned q
  · refine Iff.trans ?_ (h.graves q)
    rw [Grave, Grave, Node.get?_setConn]
    split_ifs with hq
    · obtain ⟨c, hc⟩ := Option.isSome_iff_exists.mp hq.2
      rw [Node.conn_of_get? hc] at hd
      rw [hq.1, hc]
      simp only [Option.some.injEq, exists_eq_left']
      rw [hd]
    · rfl

lemma grave_insert {c : PeerConnection S} (hp : n.heap.get? p = none) (hc : c.dead = false)
    (hm : m.heap = n.heap.insert p c) (q : Ptr) : Grave m q ↔ Grave n q := by
  rw [Grave, Grave, hm, Dict.get?_insert]
  split_ifs with hq
  · rw [hq, hp]
    simp [hc]
  · rfl

lemma isSome_insert {c : PeerConnection S} (hm : m.heap = n.heap.insert p c) (q : Ptr) :
    (m.heap.get? q).isSome ↔ q = p ∨ (n.heap.get? q).isSome := by
  rw [hm, Dict.get?_insert]
  split_ifs with hq
  · simp [hq]
  · simp [hq]

lemma dial (h : Tidy n dying born) (addr : Addr) (env : Env S) : Tidy (newOutbound env addr n).2 dying born := by
  have hfree := Node.freshPtr_free env n
  have hnew : n.freshPtr env ∉ n.conns ∧ born ≠ some (n.freshPtr env) := by
    have := (h.owned (n.freshPtr env)).not.mp (by rw [hfree]; simp)
    exact not_or.mp this
  refine { h with owned := fun q => ?_, conns := ?_, apart := fun q hq => ?_, graves := fun q => ?_ }
  · change (((newOutbound env addr n).2.heap.get? q).isSome ↔ q ∈ n.conns ++ [n.freshPtr env] ∨ born = some q)
    rw [isSome_insert rfl, h.owned q, List.mem_append, List.mem_singleton]
    tauto
  · exact List.nodup_append.mpr ⟨h.conns, List.nodup_singleton _, by
      intro a ha b hb hab
      rw [List.mem_singleton.mp hb] at hab
      exact hnew.1 (hab ▸ ha)⟩
  · change q ∉ n.conns ++ [n.freshPtr env]
    rw [List.mem_append, List.mem_singleton, not_or]
    refine ⟨h.apart q hq, ?_⟩
    rintro rfl
    exact hnew.2 hq
  · exact (grave_insert hfree rfl rfl q).trans (h.graves q)

lemma construct (h : Tidy n dying none) {c : PeerConnection S} (hp : n.heap.get? p = none) (hc : c.dead = false) :
    Tidy { n with heap := n.heap.insert p c } dying (some p) := by
  have hnew : p ∉ n.conns := by
    intro hmem
    have := (h.owned p).mpr (.inl hmem)
    rw [hp] at this
    cases this
  refine { h with owned := fun q => ?_, apart := fun q hq => ?_, graves := fun q => ?_ }
  · have hiff := isSome_insert (n := n) (m := { n with heap := n.heap.insert p c }) rfl q
    rw [hiff, h.owned q]
    simp only [reduceCtorEq, or_false, Option.some.injEq]
    tauto
  · cases hq
    exact hnew
  · exact (grave_insert hp hc rfl q).trans (h.graves q)

lemma adopt (h : Tidy n dying (some p)) : Tidy { n with conns := n.conns ++ [p] } dying none := by
  have hnew : p ∉ n.conns := h.apart p rfl
  refine { h with owned := fun q => ?_, conns := ?_, apart := fun q hq => by cases hq }
  · change ((n.heap.get? q).isSome ↔ q ∈ n.conns ++ [p] ∨ none = some q)
    rw [h.owned q, List.mem_append, List.mem_singleton]
    simp only [reduceCtorEq, or_false, Option.some.injEq]
    tauto
  · exact List.nodup_append.mpr ⟨h.conns, List.nodup_singleton _, by
      intro a ha b hb hab
      rw [List.mem_singleton.mp hb] at hab
      exact hnew (hab ▸ ha)⟩

lemma die (h : Tidy n dying born) (hp : (n.conn p).dead = false) :
    Tidy (Multimaster.dying p n) (p :: dying) born := by
  have hget := Node.get?_of_alive hp
  have hfresh : p ∉ n.reap ∧ p ∉ dying := by
    refine not_or.mp ((h.graves p).not.mp ?_)
    rintro ⟨c, hc, hd⟩
    rw [hget] at hc
    cases hc
    rw [hp] at hd
    cases hd
  refine { h with owned := fun q => ?_, graves := fun q => ?_, once := ?_ }
  · exact (iff_of_eq (congrArg (· = true) (Node.isSome_setConn n p q _))).trans (h.owned q)
  · change Grave (n.setConn p (n.conn p).killed) q ↔ _
    rw [Grave, Node.get?_setConn, List.mem_cons]
    split_ifs with hq
    · rw [hq.1]
      simp [PeerConnection.killed]
    · have hne : q ≠ p := fun he => hq ⟨he, by rw [hget]; rfl⟩
      simp only [hne, false_or]
      exact h.graves q
  · change (n.reap ++ p :: dying).Nodup
    exact List.nodup_middle.mpr (List.nodup_cons.mpr ⟨by simp [hfresh], h.once⟩)

lemma bury {env : Env S} (h : Tidy n (p :: dying) born) : Tidy (buryLater env p n) dying born := by
  have hreap : (buryLater env p n).reap = n.reap ++ [p] := by
    unfold buryLater
    rcases scheduleReap_cases env { n with reap := n.reap ++ [p] } with he | he
    · rw [he]
    · rw [he]
      rfl
  have hheap : (buryLater env p n).heap = n.heap := bury_field Node.heap (fun _ _ _ _ _ => rfl) n p
  have hconns : (buryLater env p n).conns = n.conns := bury_field Node.conns (fun _ _ _ _ _ => rfl) n p
  have hscheduled : (buryLater env p n).reapScheduled = true ∧ (buryLater env p n).reapTimers.length = 1 := by
    have htimer := h.timer
    unfold Node.reapTimers at htimer
    simp only [buryLater, scheduleReap, Node.reapTimers]
    cases hb : n.reapScheduled with
    | true => simpa [hb] using htimer
    | false => simpa [hb, Node.addTimer, Node.bump, List.filter_append] using htimer
  constructor
  · rw [hheap, hconns]
    exact h.owned
  · rw [hconns]
    exact h.conns
  · rw [hconns]
    exact h.apart
  · intro q
    rw [Grave, hheap, hreap, List.mem_append, List.mem_singleton, or_assoc, ← List.mem_cons]
    exact h.graves q
  · rw [hreap, List.append_assoc]
    exact h.once
  · rw [hscheduled.1, hscheduled.2]
    rfl
  · exact fun _ => hscheduled.1

lemma get?_foldl_erase (ps : List Ptr) (heap : Dict Ptr (PeerConnection S)) (l : List Ptr) (q : Ptr) :
    (ps.foldl (fun h p => if p ∈ l then h.erase p else h) heap).get? q =
      if q ∈ ps ∧ q ∈ l then none else heap.get? q := by
  induction ps generalizing heap with
  | nil => simp
  | cons p ps ih =>
    rw [List.foldl_cons, ih]
    by_cases hq : q ∈ ps ∧ q ∈ l
    · rw [if_pos hq, if_pos ⟨List.mem_cons_of_mem _ hq.1, hq.2⟩]
    · rw [if_neg hq]
      by_cases hpl : p ∈ l
      · rw [if_pos hpl, Dict.get?_erase]
        by_cases hqp : q = p
        · rw [if_pos hqp, if_pos ⟨by rw [hqp]; exact List.mem_cons_self, by rw [hqp]; exact hpl⟩]
        · rw [if_neg hqp, if_neg]
          rintro ⟨hmem, hl⟩
          exact hq ⟨(List.mem_cons.mp hmem).resolve_left hqp, hl⟩
      · rw [if_neg hpl, if_neg]
        rintro ⟨hmem, hl⟩
        rcases List.mem_cons.mp hmem with rfl | hmem
        · exact hpl hl
        · exact hq ⟨hmem, hl⟩

lemma reap (h : Tidy n [] none) {i : ℕ} {d : ℤ} (ht : n.timers[i]? = some (d, .reap)) :
    Tidy (reapDead { n with timers := n.timers.eraseIdx i }) [] none := by
  have hsub (p : Ptr) (hp : p ∈ n.reap) : p ∈ n.conns := by
    obtain ⟨c, hc, -⟩ := (h.graves p).mpr (.inl hp)
    exact ((h.owned p).mp (by rw [hc]; rfl)).resolve_right (by simp)
  have hget (q : Ptr) : (reapDead { n with timers := n.timers.eraseIdx i }).heap.get? q =
      if q ∈ n.reap then none else n.heap.get? q := by
    refine (get?_foldl_erase n.reap n.heap n.conns q).trans ?_
    by_cases hq : q ∈ n.reap
    · rw [if_pos ⟨hq, hsub q hq⟩, if_pos hq]
    · rw [if_neg fun hand => hq hand.1, if_neg hq]
  constructor
  · intro q
    rw [hget]
    change _ ↔ q ∈ n.conns.filter (· ∉ n.reap) ∨ _
    rw [List.mem_filter]
    split_ifs with hq
    · simp [hq]
    · simpa [hq] using h.owned q
  · exact h.conns.filter _
  · intro p hp
    cases hp
  · intro q
    rw [Grave, hget]
    change _ ↔ q ∈ [] ∨ q ∈ []
    simp only [List.not_mem_nil, or_self, iff_false]
    rintro ⟨c, hc, hd⟩
    split_ifs at hc with hq
    exact hq (((h.graves q).mp ⟨c, hc, hd⟩).resolve_right (by simp))
  · exact List.nodup_nil
  · have hone : n.reapTimers.length = 1 := by
      have htimer := h.timer
      have hmem : (d, TimerKind.reap) ∈ n.reapTimers :=
        List.mem_filter.mpr ⟨List.mem_of_getElem? ht, by simp⟩
      have hpos := List.length_pos_of_mem hmem
      split_ifs at htimer <;> omega
    have herase : ((n.timers.eraseIdx i).filter fun t => t.2 = .reap).length + 1 = n.reapTimers.length :=
      length_filter_eraseIdx ht (by simp)
    change ((n.timers.eraseIdx i).filter fun t => t.2 = .reap).length = if false then 1 else 0
    simp only [Bool.false_eq_true, if_false]
    omega
  · intro hne
    exact absurd rfl hne

lemma empty (h : Tidy n [] none) (hheap : m.heap = ∅) (hconns : m.conns = []) (hreap : m.reap = [])
    (hscheduled : m.reapScheduled = n.reapScheduled) (htimers : m.timers = n.timers) : Tidy m [] none := by
  constructor
  · intro q
    simp [hheap, hconns]
  · rw [hconns]
    exact List.nodup_nil
  · intro p hp
    cases hp
  · intro q
    simp [Grave, hheap, hreap]
  · rw [hreap]
    exact List.nodup_nil
  · rw [Node.reapTimers, htimers, hscheduled]
    exact h.timer
  · exact fun hne => absurd hreap hne

end Tidy

end Multimaster
