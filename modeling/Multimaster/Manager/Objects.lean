import Multimaster.Manager.PlanEvents

/-! What a plan step does to a connection object, to the versions of identity records and to the number of answers read,
and the states that a run goes through. -/

namespace Multimaster

variable {S : Suite} {env : Env S} {o : Node S} {e : Option Event}

inductive Shift (env : Env S) (o : Node S) (e : Option Event) (pos : ℕ) (q : Ptr) :
    PeerConnection S → PeerConnection S → Prop where
  | same {c d : PeerConnection S} (h : d.log = c.log) : Shift env o e pos q c d
  | sent {c d : PeerConnection S} (item : Sent S) (hf : Speaks env o e item.frame)
      (h : d.log = { c with lastSend := env.oracle.clock pos, sent := c.sent ++ [item] }.log) : Shift env o e pos q c d
  | heard {c d : PeerConnection S} (ev : Event) (f : Frame S) (src : Source) (he : e = some ev)
      (hh : ev.Hands env o q f) (h : d.log = { c with
        lastRecv := env.oracle.clock o.pos, dispatched := c.dispatched ++ [(src, f)] }.log) : Shift env o e pos q c d
  | turn {c d : PeerConnection S} (st : ConnState) (hs : st ≠ .dead) (h : d.log = { c with state := st }.log) :
      Shift env o e pos q c d
  | killed {c d : PeerConnection S} (hc : c.dead = false) (h : d.log = c.killed.log) : Shift env o e pos q c d

structure NewBorn (env : Env S) (pos : ℕ) (d : PeerConnection S) : Prop where
  dead : d.dead = false
  state : d.state = .connectingOut ∨ d.state = .handshaking
  sent : d.sent = []
  dispatched : d.dispatched = []
  created : d.createdAt = env.oracle.clock pos ∧ d.lastRecv = env.oracle.clock pos ∧ d.lastSend = env.oracle.clock pos

lemma loseRecords_heap (ids : List PeerId) (n : Node S) : (ids.foldl loseRecord n).heap = n.heap :=
  estate_field (loseRecords_estate n ids) Node.heap fun _ => rfl

lemma recorded_heap (id : PeerId) (r : PeerRecord) (n : Node S) : (recorded env id r n).heap = n.heap :=
  estate_field (recorded_estate env n id r) Node.heap fun _ => rfl

lemma get?_reapDead {n : Node S} {q : Ptr} {d : PeerConnection S} (h : (reapDead n).heap.get? q = some d) :
    n.heap.get? q = some d := by
  change (n.reap.foldl _ n.heap).get? q = some d at h
  rw [get?_eraseOwned] at h
  split_ifs at h
  exact h

lemma letGo_field {α : Type} (f : Node S → α)
    (hf : ∀ (n : Node S) r l, f { n with records := r, notices := l } = f n) (id : PeerId) (r : PeerRecord)
    (n : Node S) :
    f (letGo id r n) = f n := by
  unfold letGo
  extract_lets m
  split_ifs
  · exact hf n _ _
  · exact hf n _ n.notices

theorem PlanStep.object {s t : Instant S} (h : PlanStep env o e s t) {q : Ptr} {d : PeerConnection S}
    (hq : t.node.heap.get? q = some d) :
    s.node.heap.get? q = none ∧ NewBorn env s.node.pos d ∨
      ∃ c, s.node.heap.get? q = some c ∧ Shift env o e s.node.pos q c d := by
  have keep (hh : t.node.heap = s.node.heap) :
      s.node.heap.get? q = none ∧ NewBorn env s.node.pos d ∨
        ∃ c, s.node.heap.get? q = some c ∧ Shift env o e s.node.pos q c d := by
    rw [hh] at hq
    exact .inr ⟨d, hq, .same rfl⟩
  have set {n : Node S} {p : Ptr} {x : PeerConnection S} (hn : n.heap = s.node.heap)
      (hd : (n.setConn p x).heap.get? q = some d) (hx : q = p → Shift env o e s.node.pos q (s.node.conn p) x) :
      s.node.heap.get? q = none ∧ NewBorn env s.node.pos d ∨
        ∃ c, s.node.heap.get? q = some c ∧ Shift env o e s.node.pos q c d := by
    rw [Node.get?_setConn, hn] at hd
    split_ifs at hd with hp
    · obtain ⟨rfl, hsome⟩ := hp
      cases hd
      obtain ⟨c, hc⟩ := Option.isSome_iff_exists.mp hsome
      have := hx rfl
      rw [Node.conn_of_get? hc] at this
      exact .inr ⟨c, hc, this⟩
    · exact .inr ⟨d, hd, .same rfl⟩
  have alloc {p : Ptr} {x : PeerConnection S} (hp : s.node.heap.get? p = none) (hx : NewBorn env s.node.pos x)
      (hd : (s.node.heap.insert p x).get? q = some d) :
      s.node.heap.get? q = none ∧ NewBorn env s.node.pos d ∨
        ∃ c, s.node.heap.get? q = some c ∧ Shift env o e s.node.pos q c d := by
    rw [Dict.get?_insert] at hd
    split_ifs at hd with hpq
    · cases hd
      exact .inl ⟨hpq ▸ hp, hx⟩
    · exact .inr ⟨d, hd, .same rfl⟩
  cases h with
  | aside h => exact keep (h.field Node.heap fun _ => rfl)
  | tend p x h => exact set rfl hq fun _ => .same h
  | append p rec item hf => exact set (n := s.node.bump) rfl hq fun _ => .sent item hf rfl
  | @speak u p rec item hf => exact set (n := u.node.bump) rfl hq fun _ => .sent item hf rfl
  | outbound addr => exact alloc (Node.freshPtr_free env _) ⟨rfl, .inl rfl, rfl, rfl, rfl, rfl, rfl⟩ hq
  | dial ev id he hc hm => exact alloc (Node.freshPtr_free env _) ⟨rfl, .inl rfl, rfl, rfl, rfl, rfl, rfl⟩ hq
  | die p hp => exact set rfl hq fun _ => .killed hp rfl
  | release id r p hr hc => exact keep (letGo_field Node.heap (fun _ _ _ => rfl) id r _)
  | arm id => exact keep (reconnect_field Node.heap (fun _ _ _ _ => rfl) _ id)
  | bury p => exact keep (bury_field Node.heap (fun _ _ _ _ _ => rfl) _ p)
  | stamp ev p f src he hh => exact set rfl hq fun hqp => .heard ev f src he (hqp ▸ hh) rfl
  | connect p hs => exact set rfl hq fun _ => .turn .handshaking (by simp) rfl
  | confirm p x hs hsec h => exact set rfl hq fun _ => .turn .awaitingConfirm (by simp) h
  | establish p hd hs => exact set rfl hq fun _ => .turn .established (by simp) rfl
  | learn p pid h hp hg => exact keep (learned_spec env p h _).1.heap
  | meet id port ip he => exact keep (recorded_heap id _ _)
  | lose i ids he hn h => exact keep (loseRecords_heap ids _)
  | construct addr he => exact alloc (Node.freshPtr_free env _) ⟨rfl, .inr rfl, rfl, rfl, rfl, rfl, rfl⟩ hq
  | reap i d' he ht => exact .inr ⟨d, get?_reapDead hq, .same rfl⟩
  | clear m he =>
    have hnone : (∅ : Dict Ptr (PeerConnection S)).get? q = some d := hq
    rw [Dict.get?_empty] at hnone
    cases hnone
  | settle | leave | install | close | announce | fire | arrange | adopt | identify | begin | stop =>
    exact keep rfl

lemma PlanStep.pos_le {s t : Instant S} (h : PlanStep env o e s t) : s.node.pos ≤ t.node.pos := by
  cases h with
  | aside h => exact h.pos
  | arm id =>
    rcases scheduleReconnect_cases env id _ with h | ⟨r, d, -, -, -, -, h⟩
    · exact (congrArg Node.pos h).ge
    · exact (Nat.le_add_right _ 2).trans_eq (congrArg Node.pos h).symm
  | release id r p hr hc => exact (letGo_field Node.pos (fun _ _ _ => rfl) id r _).ge
  | bury p =>
    unfold buryLater
    rcases scheduleReap_cases env { s.node with reap := s.node.reap ++ [p] } with h | h
    · exact (congrArg Node.pos h).ge
    · exact (Nat.le_succ _).trans_eq (congrArg Node.pos h).symm
  | learn p pid h hp hg => exact (learned_spec env p h _).1.pos.1
  | meet id port ip he =>
    change o.pos ≤ (recorded env id _ o).pos
    unfold recorded
    split_ifs
    · exact Nat.le_succ _
    · exact Nat.le_add_right _ 2
  | lose i ids he hn h =>
    have hpos (l : List PeerId) (n : Node S) : (l.foldl loseRecord n).pos = n.pos := by
      induction l generalizing n with
      | nil => rfl
      | cons id l ih => exact ih _
    exact (hpos ids s.node).ge.trans (Nat.le_succ _)
  | append | speak | outbound | dial | stamp | arrange => exact Nat.le_succ _
  | _ => exact le_rfl

lemma PlanSteps.pos_le {s t : Instant S} (h : PlanSteps env o e s t) : s.node.pos ≤ t.node.pos := by
  induction h with
  | refl => exact le_rfl
  | tail _ h ih => exact ih.trans h.pos_le

lemma step_pos_le (env : Env S) (n : Node S) (e : Event) : n.pos ≤ (step env n e).pos :=
  PlanSteps.pos_le (step_planSteps env n e)

section Runs

/-- The state of a run after its first `i` events. -/
def reached (env : Env S) (es : List Event) (i : ℕ) : Node S := run env (es.take i)

lemma reached_succ {es : List Event} {i : ℕ} {e : Event} (h : es[i]? = some e) :
    reached env es (i + 1) = step env (reached env es i) e := by
  rw [reached, List.take_add_one, h, Option.toList_some, run_append_one]
  rfl

lemma reached_past {es : List Event} {i : ℕ} (h : es[i]? = none) : reached env es (i + 1) = reached env es i := by
  rw [reached, List.take_add_one, h, Option.toList_none, List.append_nil]
  rfl

lemma reached_from {I : Node S → Prop} {es : List Event} {i j : ℕ} (h : i ≤ j)
    (keep : ∀ l e, i ≤ l → l < j → es[l]? = some e → I (reached env es l) → I (step env (reached env es l) e))
    (hi : I (reached env es i)) : I (reached env es j) := by
  induction j, h using Nat.le_induction with
  | base => exact hi
  | succ j hij ih =>
    have hj := ih fun l e hl hlt => keep l e hl (hlt.trans (Nat.lt_succ_self j))
    cases he : es[j]? with
    | none =>
      rw [reached_past he]
      exact hj
    | some e =>
      rw [reached_succ he]
      exact keep j e hij (Nat.lt_succ_self j) he hj

lemma reached_pos_le {es : List Event} {i j : ℕ} (h : i ≤ j) : (reached env es i).pos ≤ (reached env es j).pos :=
  reached_from (I := fun n => (reached env es i).pos ≤ n.pos) h
    (fun _ e _ _ _ hl => hl.trans (step_pos_le env _ e)) le_rfl

lemma along_reached {P : Node S → Event → Prop} {es : List Event} (h : Along env P (started env) es) {i : ℕ} {e : Event}
    (he : es[i]? = some e) : P (reached env es i) e := by
  unfold reached run
  generalize started env = n at h ⊢
  induction es generalizing n i with
  | nil => cases he
  | cons a es ih =>
    cases i with
    | zero =>
      cases he
      exact h.1
    | succ i => exact ih he (step env n a) h.2

end Runs

end Multimaster
