import Multimaster.Manager.Ledger

/-! How many reconnect timers a peer has: what `schedule_reconnect` arms is all there is. -/

namespace Multimaster

variable {S : Suite} {env : Env S} {o : Node S} {e : Option Event}

def Node.reconnects (n : Node S) (id : PeerId) : ℕ := n.timers.countP (·.2 = .reconnect id)

def Duty.rearms (id : PeerId) : Duty → Bool
  | .rearm i _ => i = id
  | _ => false

def Instant.load (s : Instant S) (id : PeerId) : ℕ := s.node.reconnects id + s.due.countP (·.rearms id)

def OnTime (env : Env S) (n : Node S) : Event → Prop
  | .timer i => ∀ x ∈ n.timers[i]?, x.1 ≤ env.oracle.clock n.pos
  | _ => True

/-- No announce of a peer arrives, and no handshake with it ends, while a reconnect timer of its record is pending. -/
def Spaced (env : Env S) (n : Node S) : Event → Prop
  | .discovered id _ _ => n.reconnects id = 0
  | .plaintextTurn p => ∀ id ∈ nextPeer env n p, n.reconnects id = 0
  | _ => True

instance (env : Env S) (n : Node S) : ∀ e, Decidable (OnTime env n e)
  | .timer i => inferInstanceAs (Decidable (∀ x ∈ n.timers[i]?, x.1 ≤ env.oracle.clock n.pos))
  | .discovered .. | .accept .. | .hangup .. | .connected .. | .writable .. | .receive .. | .eof .. | .recvError ..
  | .plaintextTurn .. | .recordTurn .. | .secureTurn .. | .broadcast .. | .send .. | .shutdown => .isTrue trivial

instance (env : Env S) (n : Node S) : ∀ e, Decidable (Spaced env n e)
  | .discovered id _ _ => inferInstanceAs (Decidable (n.reconnects id = 0))
  | .plaintextTurn p => inferInstanceAs (Decidable (∀ id ∈ nextPeer env n p, n.reconnects id = 0))
  | .accept .. | .hangup .. | .connected .. | .writable .. | .receive .. | .eof .. | .recvError .. | .recordTurn ..
  | .secureTurn .. | .timer .. | .broadcast .. | .send .. | .shutdown => .isTrue trivial

/-- In the run, a dial of a record waits for the delay that was last computed for it, unless the record was connected
in between, and no record has two reconnect timers pending. -/
structure BackoffKept (env : Env S) (es : List Event) : Prop where
  waits : ∀ i j id due ev p, i < j → (reached env es i).timers.count (due, .reconnect id) <
      (reached env es (i + 1)).timers.count (due, .reconnect id) → es[j]? = some ev →
    ev.dialing env (reached env es j) = some (id, p) → due ≤ env.oracle.clock (reached env es j).pos ∨
      ∃ l, i < l ∧ l ≤ j ∧ ((reached env es l).record id).state = .connected
  one : ∀ i id, (reached env es i).reconnects id ≤ 1

section Load

variable {s t : Instant S}

def Released (s t : Instant S) (id : PeerId) : Prop := ∃ r p, s.node.records.get? id = some r ∧ r.conn = some p ∧
  t.node.records.get? id = some { r with conn := none, state := .disconnected }

lemma countP_rearms_cons {d : Duty} {id : PeerId} (h : ∀ b, d ≠ .rearm id b) (l : List Duty) :
    (d :: l).countP (·.rearms id) = l.countP (·.rearms id) := by
  refine List.countP_cons_of_neg ?_
  cases d with
  | rearm i b =>
    intro hi
    obtain rfl := of_decide_eq_true hi
    exact h b rfl
  | _ => exact Bool.false_ne_true

lemma linkDuties_rearms (p : Ptr) (pid : PeerId) (n : Node S) (id : PeerId) :
    (linkDuties p pid n).countP (·.rearms id) = 0 := by
  rw [List.countP_eq_zero]
  intro d hd
  rcases List.mem_append.mp hd with hd | hd
  · obtain ⟨q, -, rfl⟩ := List.mem_map.mp hd
    exact Bool.false_ne_true
  · split_ifs at hd
    · cases hd
    · rw [List.mem_singleton.mp hd]
      exact Bool.false_ne_true

lemma PlanStep.rearms (h : PlanStep env o e s t) (id : PeerId) :
    t.due.countP (·.rearms id) ≤ s.due.countP (·.rearms id) ∨
      t.due.countP (·.rearms id) = s.due.countP (·.rearms id) + 1 ∧ Released s t id := by
  have adds {d : Duty} {l : List Duty} (h : ∀ b, d ≠ .rearm id b) :
      (d :: l).countP (·.rearms id) ≤ l.countP (·.rearms id) := (countP_rearms_cons h l).le
  have pays {d : Duty} {l : List Duty} : l.countP (·.rearms id) ≤ (d :: l).countP (·.rearms id) :=
    (List.sublist_cons_self d l).countP_le
  cases h with
  | @release u a r p hr hc =>
    by_cases ha : a = id
    · subst ha
      refine .inr ⟨List.countP_cons_of_pos (decide_eq_true rfl), r, p, hr, hc, ?_⟩
      change (letGo a r s.node).records.get? a = _
      rw [letGo_records, Dict.get?_insert, if_pos rfl]
    · exact .inl (adds fun b hb => ha (by cases hb; rfl))
  | speak p rec item hf => exact .inl pays
  | arm a => exact .inl pays
  | settle a => exact .inl pays
  | connect p hs => exact .inl (adds fun b hb => by cases hb)
  | confirm p d hs hsec h => exact .inl (adds fun b hb => by cases hb)
  | establish p hd hs => exact .inl (adds fun b hb => by cases hb)
  | leave p hp => exact .inl pays
  | @install u p pid hr hg hl =>
    left
    change (linkDuties p pid u.node ++ u.due).countP _ ≤ _
    rw [List.countP_append, linkDuties_rearms, zero_add]
    exact pays
  | close q hq => exact .inl pays
  | announce pid => exact .inl pays
  | construct addr he =>
    exact .inl ((adds fun b hb => by cases hb).trans (adds fun b hb => by cases hb))
  | adopt p => exact .inl pays
  | _ => exact .inl le_rfl

lemma reconnects_append (l : List (ℤ × TimerKind)) (due : ℤ) (kind : TimerKind) (id : PeerId) :
    (l ++ [(due, kind)]).countP (·.2 = .reconnect id) =
      l.countP (·.2 = .reconnect id) + if kind = .reconnect id then 1 else 0 := by
  rw [List.countP_append, List.countP_singleton]
  simp only [decide_eq_true_eq]

lemma PlanStep.load (h : PlanStep env o e s t) (hk : ∀ id r, s.node.records.get? id = some r → r.id = id)
    (id : PeerId) : t.load id ≤ s.load id ∨ t.load id ≤ s.load id + 1 ∧ Released s t id := by
  unfold Instant.load Node.reconnects
  have quiet (ht : t.node.timers.countP (·.2 = .reconnect id) ≤ s.node.timers.countP (·.2 = .reconnect id)) :
      t.node.timers.countP (·.2 = .reconnect id) + t.due.countP (·.rearms id) ≤
          s.node.timers.countP (·.2 = .reconnect id) + s.due.countP (·.rearms id) ∨
        t.node.timers.countP (·.2 = .reconnect id) + t.due.countP (·.rearms id) ≤
          s.node.timers.countP (·.2 = .reconnect id) + s.due.countP (·.rearms id) + 1 ∧ Released s t id := by
    rcases h.rearms id with hle | ⟨hadd, hrel⟩
    · exact .inl (Nat.add_le_add ht hle)
    · exact .inr ⟨by omega, hrel⟩
  have htimers := h.timers
  generalize hx : s.node.timers = x at htimers quiet ⊢
  generalize hy : t.node.timers = y at htimers quiet ⊢
  cases htimers with
  | same => exact quiet le_rfl
  | other _ due kind hkind =>
    refine quiet ?_
    rw [reconnects_append, if_neg (hkind id), add_zero]
  | backoff _ a r hd hr hs =>
    -- the duty turns into the timer
    rw [hk a r hr, reconnects_append, hd]
    left
    by_cases ha : a = id
    · subst ha
      have howed : (Duty.rearm a false :: t.due).countP (·.rearms a) = t.due.countP (·.rearms a) + 1 :=
        List.countP_cons_of_pos (decide_eq_true rfl)
      rw [if_pos rfl, howed]
      omega
    · rw [if_neg fun h => ha (by cases h; rfl), countP_rearms_cons fun b hb => ha (by cases hb; rfl)]
      exact le_rfl
  | fired i z he hz => exact quiet ((List.eraseIdx_sublist _ _).countP_le)

end Load

structure Paced (s : Instant S) : Prop where
  key : ∀ id r, s.node.records.get? id = some r → r.id = id
  one : ∀ id, s.load id ≤ 1
  free : ∀ id r, s.node.records.get? id = some r → r.conn.isSome → s.load id = 0

section Pacing

variable {s t : Instant S}

lemma Paced.of_load (h : Paced s) (hk : ∀ id r, t.node.records.get? id = some r → r.id = id)
    (hl : ∀ id, t.load id ≤ s.load id ∨ t.load id ≤ s.load id + 1 ∧ Released s t id)
    (hc : ∀ id r, t.node.records.get? id = some r → r.conn.isSome →
      s.load id = 0 ∨ ∃ r₀, s.node.records.get? id = some r₀ ∧ r₀.conn.isSome) : Paced t where
  key := hk
  one id := by
    rcases hl id with hle | ⟨hadd, r, p, hr, hp, -⟩
    · exact hle.trans (h.one id)
    · rw [h.free id r hr (by rw [hp]; rfl)] at hadd
      exact hadd
  free id r hr hconn := by
    have hzero : s.load id = 0 := by
      rcases hc id r hr hconn with hz | ⟨r₀, hr₀, hc₀⟩
      · exact hz
      · exact h.free id r₀ hr₀ hc₀
    rcases hl id with hle | ⟨-, r', p, -, -, hr'⟩
    · exact Nat.le_zero.mp (hle.trans_eq hzero)
    · rw [hr] at hr'
      cases hr'
      cases hconn

lemma PlanStep.key (h : PlanStep env o e s t) (hk : ∀ id r, s.node.records.get? id = some r → r.id = id) :
    ∀ id r, t.node.records.get? id = some r → r.id = id := by
  intro id r hr
  have default (x : Option PeerRecord) (hx : s.node.records.get? id = x) : (x.getD { id }).id = id := by
    cases x with
    | none => rfl
    | some r₀ => exact hk id r₀ hx
  have hrw := h.rewrite id
  rw [hr] at hrw
  generalize hx : s.node.records.get? id = x at hrw
  cases hrw with
  | same => exact hk id r hx
  | released r₀ => exact hk id r₀ hx
  | armed r₀ => exact hk id r₀ hx
  | dialed => exact default x hx
  | learned => rfl
  | installed r₀ => exact hk id r₀ hx
  | met => rfl

lemma countP_reconnect_cons (d : ℤ) (id : PeerId) (l : List (ℤ × TimerKind)) :
    ((d, .reconnect id) :: l).countP (·.2 = .reconnect id) = l.countP (·.2 = .reconnect id) + 1 :=
  List.countP_cons_of_pos (decide_eq_true rfl)

lemma reconnects_fired {i : ℕ} {d : ℤ} {id : PeerId} (h : o.timers[i]? = some (d, .reconnect id)) :
    o.reconnects id = (o.timers.eraseIdx i).countP (·.2 = .reconnect id) + 1 := by
  obtain ⟨hi, hx⟩ := List.getElem?_eq_some_iff.mp h
  have hperm := List.getElem_cons_eraseIdx_perm hi
  rw [hx] at hperm
  rw [Node.reconnects, ← hperm.countP_eq, countP_reconnect_cons]

lemma met_timers (id : PeerId) (port : UInt16) (ip : UInt32) (n : Node S) :
    (met env id port ip n).timers = n.timers := by
  unfold met recorded
  split_ifs <;> rfl

lemma calling_cases {ev : Event} {id : PeerId} {n : Node S} (h : ev.calling env o = some (id, n)) :
    (∃ port ip, ev = .discovered id port ip ∧ n.timers = o.timers) ∨
      ∃ i d, ev = .timer i ∧ o.timers[i]? = some (d, .reconnect id) ∧ n.timers = o.timers.eraseIdx i := by
  unfold Event.calling at h
  split at h
  · cases h
    exact .inl ⟨_, _, rfl, met_timers _ _ _ o⟩
  · split at h
    · next i _ d a ht =>
      split_ifs at h
      cases h
      exact .inr ⟨i, d, rfl, ht, rfl⟩
    · cases h
  · cases h

lemma calling_reconnects {ev : Event} {id : PeerId} {n : Node S} (hc : ev.calling env o = some (id, n))
    (hi : o.reconnects id ≤ 1) (hs : Spaced env o ev) : n.reconnects id = 0 := by
  rcases calling_cases hc with ⟨port, ip, rfl, ht⟩ | ⟨i, d, rfl, hfired, ht⟩
  · rw [Node.reconnects, ht]
    exact hs
  · rw [reconnects_fired hfired] at hi
    rw [Node.reconnects, ht]
    omega

lemma PlanStep.paced (hi : Paced (.idle o)) (hs : ∀ ev, e = some ev → Spaced env o ev) (h : PlanStep env o e s t)
    (hp : Paced s) : Paced t := by
  refine hp.of_load (h.key hp.key) (h.load hp.key) ?_
  intro id r hr hconn
  have kept (x : Option PeerRecord) (hc : (x.getD { id }).conn.isSome) :
      s.load id = 0 ∨ ∃ r₀, x = some r₀ ∧ r₀.conn.isSome := by
    cases x with
    | none => cases hc
    | some r₀ => exact .inr ⟨r₀, rfl, hc⟩
  have hrw := h.rewrite id
  rw [hr] at hrw
  generalize s.node.records.get? id = x at hrw ⊢
  cases hrw with
  | same => exact .inr ⟨r, rfl, hconn⟩
  | released => cases hconn
  | armed r₀ => exact .inr ⟨r₀, rfl, hconn⟩
  | dialed _ ev p he hcall hd hdue =>
    left
    rw [Instant.load, hdue, calling_reconnects hcall (hi.one id) (hs ev he)]
    rfl
  | learned => exact kept x hconn
  | installed _ p he hn _ ht hdue hd _ =>
    left
    have hload : o.reconnects id = 0 := (hs _ he) id hn
    rw [Node.reconnects, ← ht] at hload
    rw [Instant.load, Node.reconnects, hload, hdue]
    rfl
  | met => exact kept x hconn

lemma paced_initial : Paced (.idle (Node.initial env)) where
  key id r h := by cases (Dict.get?_empty id).symm.trans h
  one _ := Nat.zero_le 1
  free _ _ _ _ := rfl

lemma paced_reached {es : List Event} (h : Along env (fun n ev => OnTime env n ev ∧ Spaced env n ev) (started env) es)
    (i : ℕ) : Paced (.idle (reached env es i)) := by
  refine reached_from (I := fun n => Paced (.idle n)) (Nat.zero_le i) ?_ ?_
  · intro l ev _ _ hev hl
    refine PlanSteps.preserves (fun ha hs => ha.paced hl ?_ hs) (step_planSteps env _ ev) hl
    intro ev' he
    cases he
    exact (along_reached h hev).2
  · refine PlanSteps.preserves (I := Paced) ?_ (started_planSteps env) paced_initial
    exact fun ha hs => ha.paced paced_initial (fun _ hev => by cases hev) hs

end Pacing

end Multimaster
