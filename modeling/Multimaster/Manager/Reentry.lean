import Multimaster.Manager.LinkChanges

/-! A send may close a connection, whose close floods and redials and so sends again. The depth
of that recursion is at most the number of records that hold a connection. -/

namespace Multimaster

variable {S : Suite} {env : Env S}

def bound (n : Node S) : ℕ := n.records.count fun _ r => r.conn.isSome

def Owned (n : Node S) : Prop := ∀ id p, n.estab.get? id = some p → (n.heap.get? p).isSome

lemma bound_setRecord {n : Node S} {id : PeerId} {r s : PeerRecord} (h : n.records.get? id = some r)
    (hc : s.conn = r.conn) : bound (n.setRecord id s) = bound n := by
  rw [bound, Node.setRecord, Dict.count_insert, bound, Dict.count_of_get? h, hc]

lemma bound_unlink_none {n : Node S} {p : Ptr} (h : ownerOf env p (unlinkBase p n) = none) :
    bound (unlink env p n) = bound n := by
  rw [bound, unlink_records, h]
  rfl

lemma bound_unlink_some {n : Node S} {p : Ptr} {o : PeerId × PeerRecord}
    (h : ownerOf env p (unlinkBase p n) = some o) : bound (unlink env p n) + 1 = bound n := by
  obtain ⟨hr, hc⟩ := ownerOf_spec h
  have hn : n.records.get? o.1 = some o.2 := hr
  rw [bound, unlink_records, h, Dict.count_insert, bound, Dict.count_of_get? hn, hc]
  simp

lemma bound_unlink_le (n : Node S) (p : Ptr) : bound (unlink env p n) ≤ bound n := by
  cases h : ownerOf env p (unlinkBase p n) with
  | none => exact (bound_unlink_none h).le
  | some o => exact Nat.le_of_lt (bound_unlink_some h ▸ Nat.lt_succ_self _)

lemma scheduleReconnect_cases (env : Env S) (id : PeerId) (n : Node S) :
    scheduleReconnect env id n = n ∨
      ∃ r delay, n.records.get? id = some r ∧ n.running = true ∧
        r.state ≠ .connected ∧ r.state ≠ .lost ∧
        scheduleReconnect env id n =
          (n.bump.setRecord id { r with reconnectAttempts := r.reconnectAttempts + 1 }).addTimer env delay
            (.reconnect r.id) := by
  unfold scheduleReconnect
  cases h : n.records.get? id with
  | none => exact .inl rfl
  | some r =>
    dsimp only
    split_ifs with hr hs
    · exact .inl rfl
    · exact .inl rfl
    · simp only [Bool.not_eq_true, Bool.not_eq_false'] at hr
      exact .inr ⟨r, _, rfl, hr, fun k => hs (.inl k), fun k => hs (.inr k), rfl⟩

lemma scheduleReap_cases (env : Env S) (n : Node S) :
    scheduleReap env n = n ∨
      scheduleReap env n = { n with reapScheduled := true }.addTimer env 0 .reap := by
  unfold scheduleReap
  split_ifs
  · exact .inl rfl
  · exact .inr rfl

lemma bound_reconnect (n : Node S) (id : PeerId) : bound (scheduleReconnect env id n) = bound n := by
  rcases scheduleReconnect_cases env id n with h | ⟨r, d, hr, -, -, -, h⟩
  · rw [h]
  · rw [h]
    exact bound_setRecord (n := n.bump) hr rfl

lemma bound_bury (n : Node S) (p : Ptr) : bound (buryLater env p n) = bound n := by
  unfold buryLater
  rcases scheduleReap_cases env { n with reap := n.reap ++ [p] } with h | h <;> rw [h] <;> rfl

lemma LinkChange.bound {n m : Node S} (h : LinkChange env n m) : bound m = bound n := by
  cases h with
  | reconnect id => exact bound_reconnect n id
  | _ => rfl

lemma LinkChanges.bound_le {n m : Node S} (h : LinkChanges env n m) : bound m ≤ bound n := by
  induction h with
  | refl => exact le_rfl
  | head h _ ih => exact ih.trans_eq h.bound
  | close p _ _ _ ihi iht => exact (iht.trans_eq (bound_bury _ p)).trans (ihi.trans (bound_unlink_le _ p))

section Frame

variable {α : Type} (f : Node S → α)

lemma bury_field (hf : ∀ n l b t k, f { n with reap := l, reapScheduled := b, timers := t, pos := k } = f n)
    (n : Node S) (p : Ptr) : f (buryLater env p n) = f n := by
  unfold buryLater
  rcases scheduleReap_cases env { n with reap := n.reap ++ [p] } with h | h
  · rw [h]
    exact hf n _ n.reapScheduled n.timers n.pos
  · rw [h]
    exact hf n _ _ _ _

lemma reconnect_field (hf : ∀ n r t k, f { n with records := r, timers := t, pos := k } = f n)
    (n : Node S) (id : PeerId) : f (scheduleReconnect env id n) = f n := by
  rcases scheduleReconnect_cases env id n with h | ⟨r, d, -, -, -, -, h⟩
  · rw [h]
  · rw [h]
    exact hf n _ _ _

end Frame

def Grave (n : Node S) (p : Ptr) : Prop := ∃ c, n.heap.get? p = some c ∧ c.dead = true

lemma LinkChange.keeps {n m : Node S} (h : LinkChange env n m) {q : Ptr} {c : PeerConnection S}
    (hq : n.heap.get? q = some c) : ∃ d, m.heap.get? q = some d ∧ Kept c d := by
  have set (p : Ptr) (d : PeerConnection S) (hd : q = p → Kept c d) :
      ∃ d', (n.setConn p d).heap.get? q = some d' ∧ Kept c d' := by
    rw [Node.get?_setConn]
    split_ifs with hp
    · exact ⟨d, rfl, hd hp.1⟩
    · exact ⟨c, hq, .refl c⟩
  cases h with
  | touch p d h =>
    refine set p d ?_
    rintro rfl
    rw [Node.conn_of_get? hq] at h
    exact .of_touch h
  | doom p g hp hg =>
    refine set p _ ?_
    rintro rfl
    rw [Node.conn_of_get? hq]
    rfl
  | reconnect id =>
    rw [reconnect_field Node.heap fun _ _ _ _ => rfl]
    exact ⟨c, hq, .refl c⟩
  | dial i t addr hr ht hu hd =>
    have hne : q ≠ n.freshPtr env := by
      rintro rfl
      rw [Node.freshPtr_free] at hq
      cases hq
    exact ⟨c, (Dict.get?_insert_ne n.heap _ hne).trans hq, .refl c⟩
  | _ => exact ⟨c, hq, .refl c⟩

lemma grave_unlink {n : Node S} {p q : Ptr} (h : Grave n q) : Grave (unlink env p n) q := by
  obtain ⟨c, hq, hc⟩ := h
  rw [Grave, unlink_heap, Node.get?_setConn]
  split_ifs
  · exact ⟨_, rfl, rfl⟩
  · exact ⟨c, hq, hc⟩

lemma grave_unlink_self {n : Node S} {p : Ptr} (h : (n.conn p).dead = false) :
    Grave (unlink env p n) p := by
  have hp := Node.get?_of_alive h
  rw [Grave, unlink_heap, Node.get?_setConn, if_pos ⟨rfl, by rw [hp, Option.isSome_some]⟩]
  exact ⟨_, rfl, rfl⟩

lemma grave_bury {n : Node S} {p q : Ptr} (h : Grave n q) : Grave (buryLater env p n) q := by
  rwa [Grave, bury_field Node.heap fun _ _ _ _ _ => rfl]

lemma LinkChanges.grave {n m : Node S} (h : LinkChanges env n m) {q : Ptr} (hq : Grave n q) : Grave m q := by
  induction h with
  | refl => exact hq
  | head h _ ih =>
    obtain ⟨c, hc, hd⟩ := hq
    obtain ⟨d, hd', hk⟩ := h.keeps hc
    exact ih ⟨d, hd', hk.dead.trans hd⟩
  | close p _ _ _ ihi iht => exact iht (grave_bury (ihi (grave_unlink hq)))

lemma LinkChanges.preserves {I : Node S → Prop} (linkChange : ∀ {n m}, LinkChange env n m → I n → I m)
    (unlink : ∀ {n} p, (n.conn p).dead = false → I n → I (unlink env p n))
    (bury : ∀ {n} p, Grave n p → I n → I (buryLater env p n))
    {n m : Node S} (h : LinkChanges env n m) (hn : I n) : I m := by
  induction h with
  | refl => exact hn
  | head h _ ih => exact ih (linkChange h hn)
  | close p hp i _ ihi iht =>
    exact iht (bury p (i.grave (grave_unlink_self hp.1)) (ihi (unlink p hp.1 hn)))

end Multimaster
