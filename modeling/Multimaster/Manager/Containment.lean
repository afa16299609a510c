import Multimaster.Manager.Reentry

/-! With enough depth, whatever sending and closing do to a node is a sequence of link changes; in
particular the recursion of `on_peer_closed` never runs out. -/

namespace Multimaster

variable {S : Suite} {env : Env S} {k : ℕ}

lemma LinkChange.estab {n m : Node S} (h : LinkChange env n m) : m.estab = n.estab := by
  cases h with
  | reconnect id => exact reconnect_field Node.estab (fun _ _ _ _ => rfl) n id
  | _ => rfl

lemma LinkChange.running {n m : Node S} (h : LinkChange env n m) : m.running = n.running := by
  cases h with
  | reconnect id => exact reconnect_field Node.running (fun _ _ _ _ => rfl) n id
  | _ => rfl

lemma owned_unlink {n : Node S} (p : Ptr) (h : Owned n) : Owned (unlink env p n) := by
  intro id q hq
  rw [unlink_isSome]
  rw [unlink_estab] at hq
  split_ifs at hq
  · exact h id q (Dict.get?_of_erase hq).2
  · exact h id q hq

namespace LinkChanges

variable {n m : Node S} (h : LinkChanges env n m)

include h

lemma running : m.running = n.running := by
  refine h.preserves (I := fun o => o.running = n.running) ?_ ?_ ?_ rfl
  · exact fun h hn => h.running.trans hn
  · exact fun p _ hn => (unlink_running env p _).trans hn
  · exact fun p _ hn => (bury_field Node.running (fun _ _ _ _ _ => rfl) _ p).trans hn

lemma isSome {q : Ptr} (hq : (n.heap.get? q).isSome) : (m.heap.get? q).isSome := by
  refine h.preserves (I := fun o => (o.heap.get? q).isSome) ?_ ?_ ?_ hq
  · intro a b h ha
    obtain ⟨c, hc⟩ := Option.isSome_iff_exists.mp ha
    obtain ⟨d, hd, -⟩ := h.keeps hc
    rw [hd, Option.isSome_some]
  · exact fun p _ hn => (unlink_isSome env p _ q).trans hn
  · intro a p _ ha
    rwa [bury_field Node.heap fun _ _ _ _ _ => rfl]

lemma owned (ho : Owned n) : Owned m := by
  refine h.preserves ?_ ?_ ?_ ho
  · intro a b h ha id p hp
    rw [h.estab] at hp
    exact (single h).isSome (ha id p hp)
  · exact fun p _ ha => owned_unlink p ha
  · intro a p _ ha id q hq
    rw [bury_field Node.estab fun _ _ _ _ _ => rfl] at hq
    rw [bury_field Node.heap fun _ _ _ _ _ => rfl]
    exact ha id q hq

end LinkChanges

def LinkCall (env : Env S) (k : ℕ) (n m : Node S) : Prop := bound n < k → Owned n → LinkChanges env n m

namespace LinkCall

lemma of_linkChanges {n m : Node S} (h : LinkChanges env n m) : LinkCall env k n m := fun _ _ => h

lemma of_linkChange {n m : Node S} (h : LinkChange env n m) : LinkCall env k n m := of_linkChanges (.single h)

lemma trans {n m o : Node S} (h : LinkCall env k n m) (g : LinkCall env k m o) : LinkCall env k n o := by
  intro hb ho
  have hm := h hb ho
  exact hm.trans (g (hm.bound_le.trans_lt hb) (hm.owned ho))

end LinkCall

abbrev LinkCalls (env : Env S) (k : ℕ) : Prop := (managerSink env k).Respects (LinkCall env k)

section Calls

variable (hR : LinkCalls env k)

include hR

lemma sendEach_linkCall (f : Frame S) (ps : List Ptr) (n : Node S)
    (hp : ∀ p ∈ ps, (n.heap.get? p).isSome) :
    LinkCall env k n (ps.foldl (fun n p => sendRaw (managerSink env k) p f (n.deref [p])) n) := by
  intro hb ho
  induction ps generalizing n with
  | nil => exact .refl n
  | cons p ps ih =>
    rw [List.foldl_cons, Node.deref_eq (by simpa using hp p (by simp))]
    have h : LinkChanges env n (sendRaw (managerSink env k) p f n) := hR.enqueue p f n hb ho
    refine h.trans (ih _ (fun q hq => ?_) (h.bound_le.trans_lt hb) (h.owned ho))
    exact h.isSome (hp q (List.mem_cons_of_mem p hq))

lemma forwardExcept_linkCall (f : Frame S) (exceptFd : Option Ptr) (n : Node S) :
    LinkCall env k n (forwardExcept (managerSink env k) f exceptFd n) := by
  intro hb ho
  have hall : ∀ p ∈ n.estab.toList.map (·.2), (n.heap.get? p).isSome := by
    intro p hp
    obtain ⟨e, he, rfl⟩ := List.mem_map.mp hp
    exact ho e.1 e.2 (Dict.mem_toList.mp he)
  rw [forwardExcept, Node.deref_eq hall]
  refine .head (.bump n) (sendEach_linkCall hR f _ n.bump ?_ hb ho)
  intro p hp
  obtain ⟨e, he, hep⟩ := List.mem_filterMap.mp hp
  have he' : e ∈ n.estab.toList := (mem_reorder _ _ _).mp he
  split_ifs at hep
  cases hep
  exact hall e.2 (List.mem_map_of_mem he')

lemma forwardTo_linkCall (dst : PeerId) (f : Frame S) (n : Node S) :
    LinkCall env k n (forwardTo (managerSink env k) dst f n).2 := by
  intro hb ho
  unfold forwardTo
  split
  · exact .refl n
  · next p hp =>
    rw [Node.deref_eq (by simpa using ho dst p hp)]
    exact hR.enqueue p f n hb ho

lemma startStaticDial_linkCall {i : ℕ} {t : StaticTarget} {n : Node S} (hr : n.running = true)
    (ht : n.staticTargets[i]? = some t) (hu : targetUp n t = false) (hd : t.dialing = none) :
    LinkCall env k n (startStaticDial (managerSink env k) i t n) := by
  have hb : LinkCall env k n n.bump := .of_linkChange (.bump n)
  unfold startStaticDial
  split
  · exact hb.trans (.of_linkChange (.report _ _))
  · next addr _ =>
    exact hb.trans (.trans (.of_linkChange (.dial n.bump i t addr hr ht hu hd)) (hR.startConnect _ _))

lemma maintainTarget_linkCall {n : Node S} (hr : n.running = true) (now : ℤ) (i : ℕ) :
    LinkCall env k n (maintainTarget (managerSink env k) now n i) := by
  unfold maintainTarget
  split
  · exact .of_linkChanges (.refl n)
  · next t ht =>
    dsimp only
    generalize backoff _ _ _ = delay
    split_ifs with hu hd hn
    · exact .of_linkChange (.settle n i t ht hu)
    · exact .of_linkChanges (.refl n)
    · exact .of_linkChanges (.refl n)
    · have hu' : targetUp n t = false := by simpa using hu
      have hd' : t.dialing = none := by simpa using hd
      have hi : i < n.staticTargets.length := (List.getElem?_eq_some_iff.mp ht).1
      refine .trans (.of_linkChange (.bump n)) ?_
      refine .trans (.of_linkChange (.arm n.bump i t now delay hr ht hu' hd' (by omega))) ?_
      refine startStaticDial_linkCall hR hr ?_ hu' hd'
      simp [Node.setTarget, hi, Node.bump]

lemma maintainStaticPeers_linkCall (n : Node S) :
    LinkCall env k n (maintainStaticPeers (managerSink env k) n) := by
  unfold maintainStaticPeers
  split_ifs with hr
  · exact .of_linkChanges (.refl n)
  · dsimp only
    generalize (managerSink env k).env.oracle.clock n.pos = now
    generalize List.range n.staticTargets.length = l
    have hr' : n.running = true := by simpa using hr
    refine .trans (.of_linkChange (.bump n)) ?_
    generalize hm : n.bump = m
    replace hr' : m.running = true := hm ▸ hr'
    clear hm
    intro hb ho
    induction l generalizing m with
    | nil => exact .refl m
    | cons i l ih =>
      have h := maintainTarget_linkCall hR hr' now i hb ho
      exact h.trans (ih _ (h.running.trans hr') (h.bound_le.trans_lt hb) (h.owned ho))

lemma applyMembership_linkCall (r : Membership × List Notice × Option (Flood S)) (n : Node S) :
    LinkCall env k ({ n with membership := r.1 }.notify r.2.1)
      (applyMembership (managerSink env k) r n) := by
  unfold applyMembership
  dsimp only
  split
  · exact .of_linkChanges (.refl _)
  · exact forwardExcept_linkCall hR _ _ _

lemma updateLocalMembership_linkCall (n : Node S) :
    LinkCall env k (commitNeighbors env n) (updateLocalMembership (managerSink env k) n) :=
  applyMembership_linkCall hR _ n.bump

lemma closeRecord_linkCall {n : Node S} {p : Ptr} {id : PeerId} {r : PeerRecord}
    (h : ownerOf env p (unlinkBase p n) = some (id, r)) :
    LinkCall env k (unlink env p n) (closeRecord (managerSink env k) p id (unlinkBase p n).bump) := by
  obtain ⟨hr, hc⟩ := ownerOf_spec h
  have hrel : LinkCall env k (unlink env p n)
      (releaseRecord (managerSink env k) id r (unlinkBase p n).bump) := by
    unfold releaseRecord
    split_ifs with hs
    · rw [unlink_of_linked h hs]
      exact updateLocalMembership_linkCall hR _
    · rw [unlink_of_idle h hs]
      exact .of_linkChanges (.refl _)
  have hr' : (unlinkBase p n).bump.records.get? id = some r := hr
  simp only [closeRecord, hr', hc, if_true]
  split_ifs
  · exact hrel.trans (maintainStaticPeers_linkCall hR _)
  · exact hrel.trans (.of_linkChange (.reconnect _ id))

omit hR in
lemma onPeerClosed_orphan {n : Node S} {p : Ptr} (h : owningRecord env p (unlinkBase p n) = none) :
    onPeerClosed (managerSink env k) p (n.setConn p (n.conn p).killed) = buryLater env p (unlinkBase p n).bump := by
  have h' : owningRecord (managerSink env k).env p
      (detachEstab p (releaseDial p (n.setConn p (n.conn p).killed))) = none := h
  simp only [onPeerClosed, h']
  rfl

omit hR in
lemma onPeerClosed_owned {n : Node S} {p : Ptr} {id : PeerId}
    (h : owningRecord env p (unlinkBase p n) = some id) :
    onPeerClosed (managerSink env k) p (n.setConn p (n.conn p).killed) =
      buryLater env p (closeRecord (managerSink env k) p id (unlinkBase p n).bump) := by
  have h' : owningRecord (managerSink env k).env p
      (detachEstab p (releaseDial p (n.setConn p (n.conn p).killed))) = some id := h
  simp only [onPeerClosed, h']
  rfl

lemma onPeerClosed_spec {n : Node S} {p : Ptr} (hb : bound n < k + 1) (ho : Owned n) :
    ∃ m, LinkChanges env (unlink env p n) m ∧
      onPeerClosed (managerSink env k) p (n.setConn p (n.conn p).killed) = buryLater env p m := by
  cases ho' : ownerOf env p (unlinkBase p n) with
  | some o =>
    obtain ⟨id, r⟩ := o
    have hid : owningRecord env p (unlinkBase p n) = some id := by
      obtain ⟨i, hi, hr⟩ := Option.bind_eq_some_iff.mp ho'
      obtain ⟨q, -, hq⟩ := Option.bind_eq_some_iff.mp hr
      split_ifs at hq
      cases hq
      exact hi
    have hlt : bound (unlink env p n) < k := by
      have := bound_unlink_some ho'
      omega
    exact ⟨_, closeRecord_linkCall hR ho' hlt (owned_unlink p ho), onPeerClosed_owned hid⟩
  | none =>
    rw [unlink_of_none ho']
    cases hid : owningRecord env p (unlinkBase p n) with
    | none => exact ⟨_, .refl _, onPeerClosed_orphan hid⟩
    | some id =>
      refine ⟨_, ?_, onPeerClosed_owned hid⟩
      rw [ownerOf, hid, Option.bind_some] at ho'
      cases hr : (unlinkBase p n).bump.records.get? id with
      | none =>
        simp only [closeRecord, hr]
        exact .refl _
      | some r =>
        have hc : r.conn ≠ some p := by
          have hr' : (unlinkBase p n).records.get? id = some r := hr
          intro hc
          simp [hr', hc] at ho'
        simp only [closeRecord, hr, hc, if_false]
        exact .refl _

lemma markDead_succ {n : Node S} {p : Ptr} (hp : (n.conn p).dead = false) (hb : bound n < k + 1)
    (ho : Owned n) : ∃ m, LinkChanges env (unlink env p n) m ∧
      markDead (managerSink env (k + 1)) p n = buryLater env p m := by
  have he : markDead (managerSink env (k + 1)) p n =
      onPeerClosed (managerSink env k) p (n.setConn p (n.conn p).killed) := if_neg (ne_true_of_eq_false hp)
  rw [he]
  exact onPeerClosed_spec hR hb ho

lemma fail_succ (n : Node S) (p : Ptr) (cat : ErrorCategory) (err : ℤ) (what : String)
    (hw : what ≠ "peer said goodbye") :
    LinkCall env (k + 1) n (fail (managerSink env (k + 1)) p cat err what n) := by
  unfold fail
  extract_lets c n₁ n₂
  split_ifs with hd
  · exact .of_linkChanges (.refl n)
  · have hp : (n.conn p).dead = false := eq_false_of_ne_true hd
    have hsome : (n.heap.get? p).isSome := by rw [Node.get?_of_alive hp, Option.isSome_some]
    have h₁ : LinkCall env (k + 1) n n₁ := .of_linkChange (.doom n p (cat, err, what) hp hw)
    have h₂ : LinkCall env (k + 1) n₁ n₂ := by
      unfold n₂
      split
      · exact .of_linkChange (.report _ _)
      · exact .of_linkChanges (.refl _)
    have hc : n₂.conn p = { n.conn p with failure := some (cat, err, what) } := by
      have hheap : n₂.heap = n₁.heap := by
        unfold n₂
        split <;> rfl
      rw [Node.conn, hheap]
      exact (Node.conn_setConn n p p _).trans (if_pos ⟨rfl, hsome⟩)
    refine (h₁.trans h₂).trans fun hb ho => ?_
    have hp' : (n₂.conn p).dead = false := by rw [hc]; exact hp
    obtain ⟨m, hm, he⟩ := markDead_succ hR hp' hb ho
    rw [he]
    exact .close p ⟨hp', _, by rw [hc], hw⟩ hm (.refl _)

end Calls

theorem respects_linkCall (env : Env S) (k : ℕ) : LinkCalls env k := by
  induction k with
  | zero => constructor <;> intros <;> intro hb <;> exact absurd hb (Nat.not_lt_zero _)
  | succ k ih =>
    exact {
      refl := fun n => .of_linkChanges (.refl n)
      trans := LinkCall.trans
      bump := fun n => .of_linkChange (.bump n)
      touch := fun n p f hf => .of_linkChange (.touch n p _ (hf _))
      report := fun n e => .of_linkChange (.report n e)
      fail := fail_succ ih }

def Closed (env : Env S) (p : Ptr) (n m : Node S) : Prop :=
  ∃ o, LinkChanges env n o ∧ ((o.conn p).dead = true ∧ m = o ∨
    (o.conn p).dead = false ∧ ∃ q, LinkChanges env (unlink env p o) q ∧ m = buryLater env p q)

lemma Closed.preserves {I : Node S → Prop} (linkChanges : ∀ {n m}, LinkChanges env n m → I n → I m)
    (unlink : ∀ {n} p, (n.conn p).dead = false → I n → I (unlink env p n))
    (bury : ∀ {n} p, Grave n p → I n → I (buryLater env p n))
    {p : Ptr} {n m : Node S} (h : Closed env p n m) (hn : I n) : I m := by
  obtain ⟨o, ho, ⟨-, rfl⟩ | ⟨hd, q, hq, rfl⟩⟩ := h
  · exact linkChanges ho hn
  · exact bury p (hq.grave (grave_unlink_self hd)) (linkChanges hq (unlink p hd (linkChanges ho hn)))

section Closing

variable (env) {n : Node S} (p : Ptr) (hb : bound n < k) (ho : Owned n)

include hb ho

lemma markDead_spec (hp : (n.conn p).dead = false) :
    ∃ m, LinkChanges env (unlink env p n) m ∧ markDead (managerSink env k) p n = buryLater env p m := by
  cases k with
  | zero => exact absurd hb (Nat.not_lt_zero _)
  | succ k => exact markDead_succ (respects_linkCall env k) hp hb ho

lemma closeGracefully_closed : Closed env p n (closeGracefully (managerSink env k) p n) := by
  by_cases hp : (n.conn p).dead
  · exact ⟨n, .refl n, .inl ⟨hp, if_pos hp⟩⟩
  · have he : closeGracefully (managerSink env k) p n =
        markDead (managerSink env k) p (enqueue (managerSink env k) p .goodbye n) := if_neg hp
    have hm := (respects_linkCall env k).enqueue p .goodbye n hb ho
    refine ⟨_, hm, ?_⟩
    rw [he]
    cases hd : ((enqueue (managerSink env k) p .goodbye n).conn p).dead with
    | true => exact .inl ⟨rfl, if_pos hd⟩
    | false => exact .inr ⟨rfl, markDead_spec env p (hm.bound_le.trans_lt hb) (hm.owned ho) hd⟩

end Closing

end Multimaster
