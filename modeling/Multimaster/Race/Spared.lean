import Multimaster.Manager.Outcome

/-! A connection that has not failed is neither closed nor taken out of the routing table by what
other connections do. -/

namespace Multimaster

variable {S : Suite} {env : Env S}

def Failed (n : Node S) (p : Ptr) : Prop :=
  ∃ f, (n.conn p).failure = some f ∧ f.2.2 ≠ "peer said goodbye"

lemma Failed.congr {n m : Node S} {p : Ptr} (h : Failed n p)
    (hc : (m.conn p).failure = (n.conn p).failure) : Failed m p := by
  rw [Failed, hc]
  exact h

lemma LinkChange.conn_cases {n m : Node S} (h : LinkChange env n m) {p : Ptr} (hp : (n.heap.get? p).isSome) :
    Touch (n.conn p) (m.conn p) ∨ Failed m p := by
  cases h with
  | touch q c hc =>
    left
    rw [Node.conn_setConn]
    split_ifs with hq
    · rw [hq.1]
      exact hc
    · rfl
  | doom q f hq hf =>
    by_cases hpq : p = q
    · subst hpq
      refine .inr ⟨f, ?_, hf⟩
      rw [Node.conn_setConn_self _ hp]
    · left
      rw [Node.conn_setConn_ne _ hpq]
      rfl
  | reconnect id =>
    left
    rw [reconnect_field (fun n => n.conn p) fun _ _ _ _ => rfl]
    rfl
  | dial i t addr hr ht hu hd =>
    have hne : p ≠ n.freshPtr env := by
      rintro rfl
      rw [Node.freshPtr_free] at hp
      cases hp
    left
    have : (openStatic env i t addr n).2.conn p = n.conn p :=
      congrArg (·.getD (.freed S)) (Dict.get?_insert_ne n.heap _ hne)
    rw [this]
    rfl
  | _ => exact .inl rfl

lemma failed_unlink {n : Node S} {p q : Ptr} (h : Failed n p) : Failed (unlink env q n) p := by
  refine h.congr ?_
  rw [unlink_conn, Node.conn_setConn]
  split_ifs with hq
  · rw [hq.1]
    rfl
  · rfl

lemma failed_bury {n : Node S} {p q : Ptr} (h : Failed n p) : Failed (buryLater env q n) p :=
  h.congr (bury_field (fun n => (n.conn p).failure) (fun _ _ _ _ _ => rfl) n q)

namespace LinkChanges

variable {n m : Node S} {p : Ptr}

lemma failed (h : LinkChanges env n m) (hp : (n.heap.get? p).isSome) (hf : Failed n p) : Failed m p := by
  refine (h.preserves (I := fun o => (o.heap.get? p).isSome ∧ Failed o p) ?_ ?_ ?_ ⟨hp, hf⟩).2
  · intro a b e ha
    refine ⟨(single e).isSome ha.1, ?_⟩
    rcases e.conn_cases ha.1 with ht | hf
    · exact ha.2.congr ht.failure
    · exact hf
  · exact fun q _ ha => ⟨(unlink_isSome env q _ p).trans ha.1, failed_unlink ha.2⟩
  · intro a q _ ha
    refine ⟨?_, failed_bury ha.2⟩
    rw [bury_field Node.heap fun _ _ _ _ _ => rfl]
    exact ha.1

lemma spares (h : LinkChanges env n m) (hp : (n.heap.get? p).isSome) (hf : ¬ Failed m p) :
    Touch (n.conn p) (m.conn p) := by
  induction h with
  | refl => exact Touch.refl _
  | head e t ih =>
    have hp' := (single e).isSome hp
    rcases e.conn_cases hp with ht | hfail
    · exact ht.trans (ih hp' hf)
    · exact absurd (t.failed hp' hfail) hf
  | @close n m o q hq i t ihi iht =>
    have hne : p ≠ q := by
      rintro rfl
      exact hf ((LinkChanges.close p hq i t).failed hp hq.2)
    have hu : ((unlink env q n).heap.get? p).isSome := (unlink_isSome env q n p).trans hp
    have hb : ((buryLater env q m).heap.get? p).isSome := by
      rw [bury_field Node.heap fun _ _ _ _ _ => rfl]
      exact i.isSome hu
    have hconn : (unlink env q n).conn p = n.conn p := by
      rw [unlink_conn, Node.conn_setConn_ne _ hne]
    have h₁ := ihi hu fun hfail => hf (t.failed hb (failed_bury hfail))
    have h₂ := iht hb hf
    rw [hconn] at h₁
    rw [bury_field (fun n => n.conn p) fun _ _ _ _ _ => rfl] at h₂
    exact h₁.trans h₂

lemma spares_estab (h : LinkChanges env n m) {id : PeerId}
    (hp : ∀ p, n.estab.get? id = some p → (n.heap.get? p).isSome ∧ ¬ Failed m p) :
    m.estab.get? id = n.estab.get? id := by
  induction h with
  | refl => rfl
  | head e t ih =>
    rw [← e.estab]
    refine ih fun p hpe => ?_
    rw [e.estab] at hpe
    exact ⟨(single e).isSome (hp p hpe).1, (hp p hpe).2⟩
  | @close n m o q hq i t ihi iht =>
    have hu : (unlink env q n).estab.get? id = n.estab.get? id := by
      rw [unlink_estab]
      split_ifs with hc
      · rw [Dict.get?_erase]
        split_ifs with hid
        · subst hid
          obtain ⟨hs, hnf⟩ := hp q hc.2
          exact absurd ((LinkChanges.close q hq i t).failed hs hq.2) hnf
        · rfl
      · rfl
    have hsome {p : Ptr} (hpe : n.estab.get? id = some p) : ((unlink env q n).heap.get? p).isSome :=
      (unlink_isSome env q n p).trans (hp p hpe).1
    have hb {p : Ptr} (hpe : n.estab.get? id = some p) : ((buryLater env q m).heap.get? p).isSome := by
      rw [bury_field Node.heap fun _ _ _ _ _ => rfl]
      exact i.isSome (hsome hpe)
    have h₁ : m.estab.get? id = n.estab.get? id := by
      refine (ihi fun p hpe => ?_).trans hu
      rw [hu] at hpe
      exact ⟨hsome hpe, fun hfail => (hp p hpe).2 (t.failed (hb hpe) (failed_bury hfail))⟩
    have hbe : (buryLater env q m).estab = m.estab := bury_field Node.estab (fun _ _ _ _ _ => rfl) m q
    rw [← h₁, ← hbe]
    refine iht fun p hpe => ?_
    rw [hbe, h₁] at hpe
    exact ⟨hb hpe, (hp p hpe).2⟩

end LinkChanges

end Multimaster
