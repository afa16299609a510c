import Multimaster.Manager.BookChanges

/-! Every call of a connection as a sequence of book changes. -/

namespace Multimaster

variable {S : Suite}
variable {env : Env S} {k : ℕ}

abbrev BookCalls (env : Env S) (k : ℕ) : Prop := (managerSink env k).Respects (BookCall env k)

section Calls

variable (hR : BookCalls env k)

include hR

lemma forwardExcept_bookCall (f : Frame S) (exceptFd : Option Ptr) (n : Node S) :
    BookCall env k n (forwardExcept (managerSink env k) f exceptFd n) := by
  refine .trans (.of_aside ((Aside.deref n _).trans (.bump _))) (.foldl (fun n p => ?_) _ _)
  exact .trans (.of_aside (.deref n [p])) (hR.enqueue p f _)

lemma forwardTo_bookCall (dst : PeerId) (f : Frame S) (n : Node S) :
    BookCall env k n (forwardTo (managerSink env k) dst f n).2 := by
  unfold forwardTo
  split
  · exact .refl n
  · next p _ => exact .trans (.of_aside (.deref n [p])) (hR.enqueue p f _)

lemma applyMembership_bookCall {r : Membership × List Notice × Option (Flood S)}
    (hr : ∀ x ∈ r.2.1, x.ofMembers = true) (n : Node S) :
    BookCall env k n (applyMembership (managerSink env k) r n) := by
  have hn : Aside n ({ n with membership := r.1 }.notify r.2.1) := by
    refine .trans (m := { n with membership := r.1 }) rfl (.notify _ fun x hx => ?_)
    have := hr x hx
    cases x <;> first | rfl | cases this
  unfold applyMembership
  dsimp only
  split
  · exact .of_aside hn
  · exact .trans (.of_aside hn) (forwardExcept_bookCall hR _ _ _)

lemma updateLocalMembership_bookCall (n : Node S) : BookCall env k n (updateLocalMembership (managerSink env k) n) :=
  .trans (.of_aside (.bump n)) (applyMembership_bookCall hR (Membership.setLocalNeighbors_members _ _ _ _) n.bump)

lemma startStaticDial_bookCall {i : ℕ} {t : StaticTarget} {n : Node S} (ht : n.staticTargets[i]? = some t)
    (hd : t.dialing = none) : BookCall env k n (startStaticDial (managerSink env k) i t n) := by
  have hb : BookCall env k n n.bump := .of_aside (.bump n)
  unfold startStaticDial
  split
  · exact hb.trans (.of_aside (.notify _ (by simp [Notice.known])))
  · next addr _ =>
    exact hb.trans (.trans (.of_bookChange fun s => .dial (s := s.on n.bump) i t addr ht hd) (hR.startConnect _ _))

lemma maintainTarget_bookCall (now : ℤ) (n : Node S) (i : ℕ) :
    BookCall env k n (maintainTarget (managerSink env k) now n i) := by
  unfold maintainTarget
  split
  · exact .refl n
  · next t ht =>
    extract_lets delay t'
    split_ifs with hu hd hn
    · exact .target ht rfl rfl
    · exact .refl n
    · exact .refl n
    · have hd' : t.dialing = none := by simpa using hd
      have hi : i < n.staticTargets.length := (List.getElem?_eq_some_iff.mp ht).1
      have harm : BookCall env k n.bump (n.bump.setTarget i t') := .target ht rfl rfl
      refine .trans (.of_aside (.bump n)) (harm.trans (startStaticDial_bookCall hR ?_ hd'))
      simp [Node.setTarget, hi, Node.bump]

lemma maintainStaticPeers_bookCall (n : Node S) : BookCall env k n (maintainStaticPeers (managerSink env k) n) := by
  unfold maintainStaticPeers
  split_ifs
  · exact .refl n
  · exact .trans (.of_aside (.bump n)) (.foldl (fun n i => maintainTarget_bookCall hR _ n i) _ _)

omit hR in
lemma scheduleReconnect_bookCall (id : PeerId) (n : Node S) : BookCall env k n (scheduleReconnect env id n) := by
  rcases scheduleReconnect_cases env id n with h | ⟨r, d, hr, -, -, -, h⟩
  · rw [h]
    exact .refl n
  · rw [h]
    have hnote : BookCall env k n.bump (n.bump.setRecord id { r with reconnectAttempts := r.reconnectAttempts + 1 }) :=
      .note hr ⟨rfl, rfl, .inl rfl⟩
    exact .trans (.of_aside (.bump n)) (hnote.trans (.of_aside (.timer env _ d (by simp))))

lemma closeRecord_bookCall {n : Node S} (p : Ptr) (id : PeerId) (hb : bound n < k + 1) (s : Juncture S) :
    BookChanges env (s.on n) (s.on (closeRecord (managerSink env k) p id n)) := by
  unfold closeRecord
  cases hr : n.records.get? id with
  | none => exact .refl
  | some r =>
    dsimp only
    split_ifs with hc hstatic
    all_goals try exact .refl
    all_goals
      let r' : PeerRecord := { r with conn := none, state := .disconnected }
      have hfirst : BookChange env (s.on n) (s.on (n.setRecord id r')) :=
        .note (s := s.on n) id r r' hr ⟨rfl, rfl, .inr rfl⟩
      have hlt : bound (n.setRecord id r') < k := by
        have hrel : bound (n.setRecord id r') + 1 = bound n := bound_release hr (by rw [hc]; rfl) rfl
        omega
      have hrel : BookCall env k (n.setRecord id r') (releaseRecord (managerSink env k) id r n) := by
        unfold releaseRecord
        dsimp only
        split_ifs
        · refine .trans (.of_aside (.trans (.notify _ ?_) (.connected env _))) (updateLocalMembership_bookCall hR _)
          simp [Notice.known]
        · exact .refl _
    · exact .head hfirst (hrel.trans (maintainStaticPeers_bookCall hR _) hlt s)
    · exact .head hfirst (hrel.trans (scheduleReconnect_bookCall id _) hlt s)

lemma onPeerClosed_ends (n : Node S) (p : Ptr) (hb : bound n < k + 1) (s : Juncture S) :
    BookChanges env ((s.on (dying p n)).dooming p)
      (s.on (onPeerClosed (managerSink env k) p (n.setConn p (n.conn p).killed))) := by
  have hdetach : BookChange env ((s.on (dying p n)).dooming p) ((s.on (unlinkBase p n).bump).dooming p) :=
    .aside (s := (s.on (dying p n)).dooming p) rfl
  have hbase : bound (unlinkBase p n).bump < k + 1 := hb
  cases hid : owningRecord env p (unlinkBase p n) with
  | none =>
    rw [onPeerClosed_orphan hid]
    exact .tail (.single hdetach) (.bury (s := s.on (unlinkBase p n).bump) p)
  | some id =>
    rw [onPeerClosed_owned hid]
    have hclose := closeRecord_bookCall hR p id hbase (s.dooming p)
    exact .tail (.head hdetach hclose)
      (.bury (s := s.on (closeRecord (managerSink env k) p id (unlinkBase p n).bump)) p)

lemma markDead_bookCall (p : Ptr) (n : Node S) : BookCall env (k + 1) n (markDead (managerSink env (k + 1)) p n) := by
  unfold markDead
  split_ifs with hd
  · exact .refl n
  · exact fun hb s => .head (.die (s := s.on n) p (eq_false_of_ne_true hd)) (onPeerClosed_ends hR n p hb s)

lemma fail_bookCall (n : Node S) (p : Ptr) (cat : ErrorCategory) (err : ℤ) (what : String) :
    BookCall env (k + 1) n (fail (managerSink env (k + 1)) p cat err what n) := by
  unfold fail
  extract_lets c n₁ n₂
  split_ifs
  · exact .refl n
  · have h₁ : BookCall env (k + 1) n n₁ := .of_bookChange fun s => .tend (s := s.on n) p _ rfl
    have h₂ : BookCall env (k + 1) n₁ n₂ := by
      unfold n₂
      split
      · exact .of_aside (.notify _ (by simp [Notice.known]))
      · exact .refl _
    exact (h₁.trans h₂).trans (markDead_bookCall hR p n₂)

end Calls

theorem respects_bookCall (env : Env S) (k : ℕ) : BookCalls env k := by
  induction k with
  | zero => constructor <;> intros <;> intro hb <;> exact absurd hb (Nat.not_lt_zero _)
  | succ k ih =>
    exact {
      refl := .refl
      trans := .trans
      bump := fun n => .of_aside (.bump n)
      touch := fun n p f hf => .of_bookChange fun s => .tend (s := s.on n) p _ (.of_touch (hf _))
      report := fun n e => .of_aside (.notify n (by simp [Notice.known]))
      fail := fun n p cat err what _ => fail_bookCall ih n p cat err what }

section Closing

variable (env k)

lemma fail_bookChanges (p : Ptr) (cat : ErrorCategory) (err : ℤ) (what : String) (n : Node S) :
    BookCall env k n (fail (managerSink env k) p cat err what n) := by
  cases k with
  | zero => exact fun hb => absurd hb (Nat.not_lt_zero _)
  | succ k => exact fail_bookCall (respects_bookCall env k) n p cat err what

lemma closeGracefully_bookCall (p : Ptr) (n : Node S) : BookCall env k n (closeGracefully (managerSink env k) p n) := by
  cases k with
  | zero => exact fun hb => absurd hb (Nat.not_lt_zero _)
  | succ k =>
    exact (respects_bookCall env (k + 1)).closeGracefully p (markDead_bookCall (respects_bookCall env k) p) n

end Closing

section Survival

def Survives (c d : PeerConnection S) : Prop := Kept c d ∨ Kept c.killed d

lemma Kept.killed {c d : PeerConnection S} (h : Kept c d) : Kept c.killed d.killed := by
  have := congrArg (fun c : PeerConnection S => { c with dead := true, state := .dead }) h
  exact this

lemma Survives.trans {c d e : PeerConnection S} (h : Survives c d) (k : Survives d e) : Survives c e := by
  rcases h with h | h <;> rcases k with k | k
  · exact .inl (h.trans k)
  · exact .inr (h.killed.trans k)
  · exact .inr (h.trans k)
  · exact .inr (h.killed.trans k)

lemma Survives.dead {c d : PeerConnection S} (h : Survives c d) (hc : c.dead = true) : d.dead = true := by
  rcases h with h | h
  · exact h.dead.trans hc
  · exact h.dead

lemma BookChange.survives {s t : Juncture S} (h : BookChange env s t) {q : Ptr} {c : PeerConnection S}
    (hq : s.node.heap.get? q = some c) : ∃ d, t.node.heap.get? q = some d ∧ Survives c d := by
  have set (p : Ptr) (d : PeerConnection S) (hd : q = p → Survives c d) :
      ∃ d', (s.node.setConn p d).heap.get? q = some d' ∧ Survives c d' := by
    rw [Node.get?_setConn]
    split_ifs with hp
    · exact ⟨d, rfl, hd hp.1⟩
    · exact ⟨c, hq, .inl (.refl c)⟩
  cases h with
  | aside h =>
    exact ⟨c, (congrArg (Dict.get? · q) (h.field Node.heap fun _ => rfl)).trans hq, .inl (.refl c)⟩
  | tend p d h =>
    refine set p d ?_
    rintro rfl
    rw [Node.conn_of_get? hq] at h
    exact .inl h
  | dial i t addr ht hd =>
    have hne : q ≠ s.node.freshPtr env := by
      rintro rfl
      rw [Node.freshPtr_free] at hq
      cases hq
    exact ⟨c, (Dict.get?_insert_ne s.node.heap _ hne).trans hq, .inl (.refl c)⟩
  | die p hp =>
    refine set p _ ?_
    rintro rfl
    rw [Node.conn_of_get? hq]
    exact .inr (.refl _)
  | @bury u p =>
    have hheap : (buryLater env p u.node).heap = u.node.heap := bury_field Node.heap (fun _ _ _ _ _ => rfl) u.node p
    exact ⟨c, (congrArg (Dict.get? · q) hheap).trans hq, .inl (.refl c)⟩
  | note | target => exact ⟨c, hq, .inl (.refl c)⟩

lemma BookChanges.survives {s t : Juncture S} (h : BookChanges env s t) {q : Ptr} {c : PeerConnection S}
    (hq : s.node.heap.get? q = some c) : ∃ d, t.node.heap.get? q = some d ∧ Survives c d := by
  induction h with
  | refl => exact ⟨c, hq, .inl (.refl c)⟩
  | tail _ h ih =>
    obtain ⟨d, hd, hc⟩ := ih
    obtain ⟨e, he, hd⟩ := h.survives hd
    exact ⟨e, he, hc.trans hd⟩

lemma BookChanges.grave {s t : Juncture S} (h : BookChanges env s t) {q : Ptr} (hq : Grave s.node q) :
    Grave t.node q := by
  obtain ⟨c, hc, hd⟩ := hq
  obtain ⟨d, hq, hs⟩ := h.survives hc
  exact ⟨d, hq, hs.dead hd⟩

lemma closeGracefully_grave {n : Node S} {p : Ptr} (hp : (n.conn p).dead = false) (hb : bound n < k) :
    Grave (closeGracefully (managerSink env k) p n) p := by
  cases k with
  | zero => exact absurd hb (Nat.not_lt_zero _)
  | succ k =>
    let m := enqueue (managerSink env (k + 1)) p .goodbye n
    have hm : BookChanges env ((Juncture.mk n [] none none).on n) ((Juncture.mk n [] none none).on m) :=
      (respects_bookCall env (k + 1)).enqueue p .goodbye n hb _
    obtain ⟨c, hc, -⟩ := hm.survives (Node.get?_of_alive hp)
    rw [show closeGracefully (managerSink env (k + 1)) p n = markDead (managerSink env (k + 1)) p m from
      if_neg (ne_true_of_eq_false hp)]
    unfold markDead
    split_ifs with hd
    · exact ⟨c, hc, by rw [← Node.conn_of_get? hc]; exact hd⟩
    · have hdying : Grave (dying p m) p := by
        refine ⟨(m.conn p).killed, ?_, rfl⟩
        exact Node.get?_setConn_self _ (by rw [show m.heap.get? p = _ from hc]; rfl)
      exact (onPeerClosed_ends (respects_bookCall env k) m p (hm.bound_le.trans_lt hb) ⟨n, [], none, none⟩).grave hdying

end Survival

end Multimaster
