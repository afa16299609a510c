import Multimaster.Manager.Live

/-! The routing table `estab_` only ever points to live links. -/

namespace Multimaster

variable {S : Suite} {env : Env S} {k : ℕ}

lemma get?_eraseOwned {α : Type} (l conns : List Ptr) (s : Dict Ptr α) (q : Ptr) :
    (l.foldl (fun h p => if p ∈ conns then h.erase p else h) s).get? q =
      if q ∈ l ∧ q ∈ conns then none else s.get? q := by
  induction l generalizing s with
  | nil => simp
  | cons p l ih =>
    rw [List.foldl_cons, ih]
    by_cases hp : p ∈ conns
    · rw [if_pos hp, Dict.get?_erase]
      by_cases hq : q = p
      · simp [hq, hp]
      · simp [hq]
    · rw [if_neg hp]
      by_cases hq : q = p
      · simp [hq, hp]
      · simp [hq]

lemma Live.get?_reapDead {n : Node S} (h : Live [] n) (q : Ptr) :
    (Multimaster.reapDead n).heap.get? q = if q ∈ n.reap then none else n.heap.get? q := by
  change (n.reap.foldl _ n.heap).get? q = _
  rw [get?_eraseOwned]
  by_cases hq : q ∈ n.reap
  · obtain ⟨c, hc, -⟩ := h.reap q hq
    have : q ∈ n.conns := by simpa [hc] using (h.tidy q).mpr
    simp [hq, this]
  · simp [hq]

lemma Live.reapDead {n : Node S} (h : Live [] n) : Live [] (reapDead n) := by
  exact {
    link := by
      intro id p hp
      obtain ⟨hz, c, hc, hd, hrest⟩ := h.link id p hp
      have hr : p ∉ n.reap := by
        intro hr
        obtain ⟨c', hc', hd'⟩ := h.reap p hr
        rw [hc] at hc'
        cases hc'
        rw [hd] at hd'
        cases hd'
      refine ⟨hz, c, ?_, hd, hrest⟩
      rw [h.get?_reapDead, if_neg hr, hc]
    await := by
      intro p c hp hs
      rw [h.get?_reapDead] at hp
      split_ifs at hp
      exact h.await p c hp hs
    reap := by
      intro p hp
      cases hp
    tidy := by
      intro p
      rw [h.get?_reapDead]
      change p ∈ n.conns.filter _ ∨ _ ↔ _
      have := h.tidy p
      by_cases hp : p ∈ n.reap
      · simp [hp]
      · simpa [hp] using this
    once := by
      have := h.once
      rw [List.append_nil] at this ⊢
      exact this.filter _
    strayed := h.strayed
    stuck := h.stuck }

def nonzeroLicense (S : Suite) : License S where
  hello _ _ h := h.nodeId.isZero = false
  complete _ _ := True
  clear := True

lemma Live.linkStep {n m : Node S} (h : Live [] n) (mv : LinkStep env k (nonzeroLicense S) n m) : Live [] m := by
  cases mv with
  | linkChanges e => exact h.linkChanges e
  | close p hp e => exact ((h.unlink hp).linkChanges e).bury (e.grave (grave_unlink_self hp))
  | quiet q => exact h.congr q.heap q.conns q.estab q.reap q.strayed q.stuck
  | input p d hd => exact h.handled hd
  | handshaking p hs =>
    exact h.setConn rfl (.inl (h.not_linked (by rw [hs]; decide))) ConnState.noConfusion
  | hello p hl d hs ha hd =>
    have hst : d.state = .handshaking := hd.state.trans hs
    refine h.setConn hd.dead (.inl (h.not_linked (by rw [hs]; decide))) fun k => ?_
    rw [hst] at k
    cases k
  | await p hl d hs hi ha hd =>
    refine h.setConn hd.2.1 (.inl (h.not_linked (by rw [hs]; decide))) fun _ => ?_
    rw [hd.2.2.1, hi]
    exact ha
  | establish p hl hp hs ha hk =>
    have hne : (n.conn p).state ≠ .established := by
      rcases hs with ⟨hs, -⟩ | hs <;> rw [hs] <;> decide
    have hz : (n.conn p).peerId.isZero = false := by
      rcases hs with ⟨-, hi, ha⟩ | hs
      · rw [hi]
        exact ha
      · exact h.await p _ (Node.get?_of_alive hp) hs
    have h₁ : Live [] (n.setConn p (n.conn p).completed) :=
      h.setConn rfl (.inl (h.not_linked hne)) ConnState.noConfusion
    rcases completed_cases env hl h.owned hk hp with hc | ⟨l, r, hlr, -, -, hc, ho⟩
    · exact h₁.closed hc
    · exact (h₁.learned hlr).outcome hc hp rfl rfl hz ho
  | refresh id r hr => exact h.congr rfl rfl rfl rfl rfl rfl
  | lose id hr => exact h.congr rfl rfl rfl rfl rfl rfl
  | dial id r hr hi hs hc => exact (h.outbound env r.dialAddr).congr rfl rfl rfl rfl rfl rfl
  | seed addr => exact h.outbound env addr
  | accept p c hp hs hd hi e =>
    have h₁ : Live [p] { n with heap := n.heap.insert p c } := by
      refine h.alloc hp (by rw [hs]; decide) rfl ?_ rfl rfl rfl rfl
      rw [List.append_nil]
      exact List.perm_append_singleton _ _
    have h₂ := h₁.linkChanges e
    exact { h₂ with
      tidy := by
        intro q
        rw [← h₂.tidy q]
        simp
      once := by
        rw [List.append_nil]
        exact h₂.once }
  | reap => exact h.reapDead
  | halt => exact h.congr rfl rfl rfl rfl rfl rfl
  | clear m _ =>
    constructor
    · intro id p hp
      cases hp
    · intro p c hp
      cases hp
    · intro p hp
      cases hp
    · intro p
      simp
    · exact List.nodup_nil
    · exact h.strayed
    · exact h.stuck

def NoZeroHello (env : Env S) (n : Node S) (e : Event) : Prop :=
  ∀ p, e = .plaintextTurn p → ∀ h ∈ nextHello env n p, h.nodeId.isZero = false

instance (env : Env S) (n : Node S) (e : Event) : Decidable (NoZeroHello env n e) :=
  Event.decidableTurn e fun p => ∀ h ∈ nextHello env n p, h.nodeId.isZero = false

lemma NoZeroHello.licensed {n : Node S} {e : Event} (h : NoZeroHello env n e) :
    e.Licensed (nonzeroLicense S) env n := by
  refine ⟨fun p f consumed he hd => ⟨?_, fun _ _ _ => trivial⟩, fun _ => trivial⟩
  rintro ack hl rfl ha -
  exact h p he hl (nextHello_of_decode hd ha)

lemma Blank.live {n : Node S} (h : Blank n) : Live [] n where
  link id p hp := by
    rw [h.estab] at hp
    cases hp
  await p c hp := by
    rw [h.heap] at hp
    cases hp
  reap p hp := by
    rw [h.reap] at hp
    cases hp
  tidy p := by
    rw [h.conns, h.heap]
    simp
  once := by
    rw [h.conns]
    exact List.nodup_nil
  strayed := h.strayed
  stuck := h.stuck

lemma live_run {es : List Event} (h : Along env (NoZeroHello env) (started env) es) :
    Live [] (run env es) := by
  refine run_induction ?_ ?_ h
  · obtain ⟨n, hn, hm⟩ := started_linkSteps env (nonzeroLicense S)
    exact hm.preserves (fun mv h => h.linkStep mv) hn.live
  · intro n e hn he
    exact (step_linkSteps hn.owned he.licensed).preserves (fun mv h => h.linkStep mv) hn

theorem estab_live (env : Env S) (es : List Event) (h : Along env (NoZeroHello env) (started env) es) :
    (∀ id p, (run env es).estab.get? id = some p → p ∈ (run env es).conns ∧
      ∃ c, (run env es).heap.get? p = some c ∧ c.dead = false ∧ c.state = .established ∧ c.peerId = id) ∧
    (run env es).strayed = false ∧ (run env es).stuck = false := by
  have hl := live_run h
  refine ⟨fun id p hp => ?_, hl.strayed, hl.stuck⟩
  obtain ⟨-, c, hc, hrest⟩ := hl.link id p hp
  refine ⟨?_, c, hc, hrest⟩
  simpa [hc] using (hl.tidy p).mpr

def greeted (id : PeerId) : List Event :=
  [.accept default, .receive 1 (encode (.hello false (Hello.plain id))), .plaintextTurn 1]

theorem estab_live_greeted :
    Along (.plain (Octets.fill [1])) (NoZeroHello (.plain (Octets.fill [1])))
      (started (.plain (Octets.fill [1]))) (greeted (Octets.fill [2])) ∧
    (run (.plain (Octets.fill [1])) (greeted (Octets.fill [2]))).estab.get? (Octets.fill [2]) = some 1 ∧
    (run (.plain (Octets.fill [1])) (greeted (Octets.fill [2]))).strayed = false :=
  have h : Along (.plain (Octets.fill [1])) (NoZeroHello (.plain (Octets.fill [1])))
      (started (.plain (Octets.fill [1]))) (greeted (Octets.fill [2])) := by decide
  ⟨h, by decide, (estab_live _ _ h).2.1⟩

theorem zero_id_dangles :
    (run (.plain (Octets.fill [1])) (greeted (Octets.zero 16) ++ [.hangup 1])).estab.get?
      (Octets.zero 16) = some 1 ∧
    ((run (.plain (Octets.fill [1])) (greeted (Octets.zero 16) ++ [.hangup 1])).conn 1).dead = true ∧
    (run (.plain (Octets.fill [1]))
      (greeted (Octets.zero 16) ++ [.hangup 1, .timer 3, .broadcast []])).strayed = true := by
  decide

end Multimaster
