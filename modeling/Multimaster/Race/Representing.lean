import Multimaster.Race.Represents
import Multimaster.Manager.LinkEvents

/-! What the handling of a frame does to an end of the arena. -/

namespace Multimaster

variable {S : Suite} {ι : Type} {env : Env S} {k : ℕ}

lemma Settled.failed {pid : PeerId} {P : Prop} {n m : Node S} (h : Settled env pid P n m) {p : Ptr}
    (hp : (n.heap.get? p).isSome) (hf : Failed n p) : Failed m p := by
  obtain ⟨-, rfl⟩ | ⟨-, he⟩ := h
  · exact hf
  · refine he.failed ?_ (hf.congr (announced_field (fun n => (n.conn p).failure) (fun _ _ _ _ => rfl) pid n))
    rw [announced_field Node.heap fun _ _ _ _ => rfl]
    exact hp

lemma Closed.isSome {q : Ptr} {n m : Node S} (h : Closed env q n m) {p : Ptr}
    (hp : (n.heap.get? p).isSome) : (m.heap.get? p).isSome := by
  refine h.preserves (I := fun o => (o.heap.get? p).isSome) (fun e => e.isSome) ?_ ?_ hp
  · exact fun q _ ha => (unlink_isSome env q _ p).trans ha
  · intro a q _ ha
    rwa [bury_field Node.heap fun _ _ _ _ _ => rfl]

lemma Closed.failed {q : Ptr} {n m : Node S} (h : Closed env q n m) {p : Ptr}
    (hp : (n.heap.get? p).isSome) (hf : Failed n p) : Failed m p := by
  refine (h.preserves (I := fun o => (o.heap.get? p).isSome ∧ Failed o p) ?_ ?_ ?_ ⟨hp, hf⟩).2
  · exact fun e ha => ⟨e.isSome ha.1, e.failed ha.1 ha.2⟩
  · exact fun q _ ha => ⟨(unlink_isSome env q _ p).trans ha.1, failed_unlink ha.2⟩
  · intro a q _ ha
    refine ⟨?_, failed_bury ha.2⟩
    rw [bury_field Node.heap fun _ _ _ _ _ => rfl]
    exact ha.1

lemma chats_isSome {n m : Node S} (h : Relation.ReflTransGen (fun a b => LinkChanges env a b ∨ Quiet a b) n m)
    {p : Ptr} (hp : (n.heap.get? p).isSome) : (m.heap.get? p).isSome := by
  induction h with
  | refl => exact hp
  | tail _ h ih =>
    rcases h with he | hq
    · exact he.isSome ih
    · rwa [hq.heap]

lemma fail_failed {n : Node S} {p : Ptr} {cat : ErrorCategory} {err : ℤ} {what : String} (hr : Ready k n)
    (hp : (n.conn p).dead = false) (hw : what ≠ "peer said goodbye") :
    Failed (fail (managerSink env k) p cat err what n) p := by
  let m := n.setConn p { n.conn p with failure := some (cat, err, what) }
  have hs : (n.heap.get? p).isSome := by rw [Node.get?_of_alive hp, Option.isSome_some]
  have hm : m.conn p = { n.conn p with failure := some (cat, err, what) } := Node.conn_setConn_self _ hs
  have hms : (m.heap.get? p).isSome := (Node.isSome_setConn ..).trans hs
  have closes (o : Node S) (ho : Ready k o) (hh : o.heap = m.heap) :
      Failed (markDead (managerSink env k) p o) p := by
    have hc : o.conn p = m.conn p := congrArg (fun h => (h.get? p).getD (.freed S)) hh
    obtain ⟨q, hq, he⟩ := markDead_spec env p ho.bound ho.owned (by rw [hc, hm]; exact hp)
    have hf : Failed o p := ⟨_, by rw [hc, hm], hw⟩
    rw [he]
    exact failed_bury (hq.failed (by rw [unlink_isSome, hh]; exact hms) (failed_unlink hf))
  have hrm : Ready k m := ready_setConn hr p _
  unfold fail
  extract_lets c w w'
  have hw' : Ready k w' ∧ w'.heap = m.heap := by
    unfold w'
    split
    · exact ⟨⟨hrm.fits, hrm.owned⟩, rfl⟩
    · exact ⟨hrm, rfl⟩
  have hc : c.dead = false := hp
  rw [if_neg (ne_true_of_eq_false hc)]
  exact closes w' hw'.1 hw'.2

lemma failed_consume {n : Node S} {p q : Ptr} (src : Source) (l : ℕ) (h : Failed n p) :
    Failed (n.setConn q (consume src l (n.conn q))) p := by
  refine h.congr ?_
  rw [Node.conn_setConn]
  split_ifs with hq
  · rw [hq.1]
    cases src <;> rfl
  · rfl

namespace Represents

variable {R : Race S ι} {s : Bool} {n m : Node S} {v : Arena.View ι}

lemma settled {pid : PeerId} {P : Prop} (h : Represents R s n v) (hm : Settled env pid P n m)
    (hs : ∀ i, ¬ Failed m (R.ptr s i)) : Represents R s m v := by
  obtain ⟨-, rfl⟩ | ⟨-, he⟩ := hm
  · exact h
  · exact (h.congr (announced_field Node.heap (fun _ _ _ _ => rfl) pid n)
      (announced_field Node.estab (fun _ _ _ _ => rfl) pid n)).linkChanges he hs

lemma introduced (h : Represents R s n v) (env : Env S) (hello : Hello S) (i : ι) :
    Represents R s (introduced env (R.ptr s i) (R.peer s) hello n) { v with table := some i } := by
  have hin : Represents R s (installLink (R.ptr s i) (R.peer s) n) { v with table := some i } := by
    refine ⟨fun id p hp => ?_, h.object, Dict.get?_insert_self _ _ _⟩
    change (n.estab.insert (R.peer s) (R.ptr s i)).get? id = some p at hp
    rw [Dict.get?_insert] at hp
    split_ifs at hp
    · cases hp
      exact h.isSome i
    · exact h.owned id p hp
  unfold Multimaster.introduced learnName
  dsimp only
  split_ifs <;> exact hin.congr rfl rfl

variable [DecidableEq ι]

lemma setLink (h : Represents R s n v) (i : ι) {d : PeerConnection S} {t : Arena.Status}
    (hin : d.inbound = (R.dialer i != s)) (hm : Matches (R.peer s) t d) :
    Represents R s (n.setConn (R.ptr s i) d) { v with status := Function.update v.status i t } where
  owned id p hp := by
    rw [Node.isSome_setConn]
    exact h.owned id p hp
  object j := by
    rw [Node.get?_setConn]
    dsimp only
    by_cases hj : j = i
    · subst hj
      refine ⟨d, if_pos ⟨rfl, h.isSome j⟩, hin, ?_⟩
      rw [Function.update_self]
      exact hm
    · have hne : R.ptr s j ≠ R.ptr s i := fun k => hj (R.injective s k)
      rw [if_neg fun k => hne k.1, Function.update_of_ne hj]
      exact h.object j
  table := h.table

omit [DecidableEq ι] in
lemma bump (h : Represents R s n v) : Represents R s n.bump v := h.congr rfl rfl

lemma input (h : Represents R s n v) (i : ι) {d : PeerConnection S}
    (hd : Handled (n.conn (R.ptr s i)) d) : Represents R s (n.setConn (R.ptr s i) d) v := by
  obtain ⟨c, hc, hin, hm⟩ := h.object i
  rw [Node.conn_of_get? hc] at hd
  have := h.setLink i (d := d) (t := v.status i) (hd.inbound.trans hin) (hm.handled hd)
  rwa [Function.update_eq_self] at this

lemma waits (h : Represents R s n v) (i : ι) {d : PeerConnection S}
    (hd : d.dead = (n.conn (R.ptr s i)).dead) (hin : d.inbound = (n.conn (R.ptr s i)).inbound)
    (hw : (n.conn (R.ptr s i)).state = .handshaking)
    (hs : d.state = .handshaking ∨ d.state = .awaitingConfirm) : Represents R s (n.setConn (R.ptr s i) d) v := by
  obtain ⟨c, hc, hcin, hm⟩ := h.object i
  rw [Node.conn_of_get? hc] at hd hin hw
  have hmd : Matches (R.peer s) (v.status i) d := by
    cases hv : v.status i with
    | pending =>
      rw [hv] at hm
      exact ⟨hd.trans hm.1, hs⟩
    | up =>
      rw [hv] at hm
      rw [hm.2.1] at hw
      cases hw
    | closed =>
      rw [hv] at hm
      exact hd.trans hm
  have := h.setLink i (hin.trans hcin) hmd
  rwa [Function.update_eq_self] at this

omit [DecidableEq ι] in
lemma chats (h : Represents R s n v)
    (hc : Relation.ReflTransGen (fun a b => LinkChanges env a b ∨ Quiet a b) n m)
    (hs : ∀ i, ¬ Failed m (R.ptr s i)) : Represents R s m v := by
  induction hc with
  | refl => exact h
  | tail hab hbc ih =>
    rcases hbc with he | hq
    · have hsome (j : ι) := chats_isSome hab (h.isSome j)
      exact (ih fun j hf => hs j (he.failed (hsome j) hf)).linkChanges he hs
    · refine (ih fun j hf => hs j (hf.congr ?_)).congr hq.heap hq.estab
      rw [Node.conn, Node.conn, hq.heap]

omit [DecidableEq ι] in
lemma keep_eq (h : Represents R s n v) (j i : ι) :
    keepExisting (R.env s).self (n.conn (R.ptr s j)) (n.conn (R.ptr s i)) (R.peer s) =
      R.rules.keep s j i := by
  obtain ⟨c, hc, hin, -⟩ := h.object j
  obtain ⟨d, hd, hin', -⟩ := h.object i
  have hiff : (R.dialer j != s) = (R.dialer i != s) ↔ R.dialer j = R.dialer i := by
    cases R.dialer j <;> cases R.dialer i <;> cases s <;> decide
  simp only [keepExisting, Node.conn_of_get? hc, Node.conn_of_get? hd, hin, hin', Race.rules, hiff]

lemma outcome {hello : Hello S} {i : ι}
    (h : Represents R s n { v with status := Function.update v.status i .up }) (hi : v.table ≠ some i)
    (o : Outcome (R.env s) k (R.ptr s i) (R.peer s) hello n m) (hs : ∀ i, ¬ Failed m (R.ptr s i)) :
    Represents R s m (v.complete (R.rules.keep s) i) := by
  have hin := h.introduced (R.env s) hello i
  have linked {q : Ptr} (he : existingLink (R.ptr s i) (R.peer s) n = some q) :
      ∃ j, v.table = some j ∧ j ≠ i ∧ R.ptr s j = q := by
    obtain ⟨j, hj, hq⟩ := Option.map_eq_some_iff.mp (h.table.symm.trans (existingLink_some he).1)
    exact ⟨j, hj, fun k => hi (k ▸ hj), hq⟩
  cases o with
  | loses q he hk hc =>
    obtain ⟨j, hj, hne, rfl⟩ := linked he
    rw [h.keep_eq] at hk
    have hv : v.complete (R.rules.keep s) i = Arena.View.part (R.rules.sticky s) i
        { v with status := Function.update v.status i .up } := by
      simp [Arena.View.complete, Arena.View.part, hj, hk, hne]
    rw [hv]
    have hco : Closed (R.env s) (R.ptr s i) n m := hc
    exact h.closed hi hco hs
  | takes he hse ha =>
    have hnone : v.table = none := by
      cases ht : v.table with
      | none => rfl
      | some j =>
        have hne : R.ptr s j ≠ R.ptr s i := fun k => hi (R.injective s k ▸ ht)
        have : n.estab.get? (R.peer s) = some (R.ptr s j) := by rw [h.table, ht, Option.map_some]
        simp [existingLink, this, hne] at he
    have hv : v.complete (R.rules.keep s) i = ⟨Function.update v.status i .up, some i⟩ := by
      simp [Arena.View.complete, hnone]
    rw [hv]
    exact (hin.linkChanges hse fun j hf => hs j (ha.failed (hse.isSome (hin.isSome j)) hf)).settled ha hs
  | @replaces m₁ m₂ _ q he hk hse hc ha =>
    obtain ⟨j, hj, hne, rfl⟩ := linked he
    rw [h.keep_eq] at hk
    have hs₂ (x : ι) : ¬ Failed m₂ (R.ptr s x) := fun hf =>
      hs x (ha.failed (hc.isSome (hse.isSome (hin.isSome x))) hf)
    have hs₁ (x : ι) : ¬ Failed m₁ (R.ptr s x) := fun hf =>
      hs₂ x (hc.failed (hse.isSome (hin.isSome x)) hf)
    have hv : v.complete (R.rules.keep s) i = Arena.View.part (R.rules.sticky s) j
        ⟨Function.update v.status i .up, some i⟩ := by
      simp [Arena.View.complete, Arena.View.part, hj, hk, Ne.symm hne]
    rw [hv]
    have hij : (some i : Option ι) ≠ some j := fun k => hne (Option.some.inj k).symm
    exact ((hin.linkChanges hse hs₁).closed hij hc hs₂).settled ha hs

end Represents

end Multimaster
