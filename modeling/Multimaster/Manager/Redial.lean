import Multimaster.Manager.Dropping

/-! A peer whose link drops is dialled again before it is given up, if it was seen shortly before. -/

namespace Multimaster

variable {S : Suite} {env : Env S} {o : Node S} {e : Option Event}

lemma event_of_report {es : List Event} {i : ℕ} {x : Notice} (h : Reports env es i x) : ∃ ev, es[i]? = some ev ∧
    (reached env es i).notices.count x < (step env (reached env es i) ev).notices.count x := by
  unfold Reports at h
  cases he : es[i]? with
  | none =>
    rw [reached_past he] at h
    exact absurd h (lt_irrefl _)
  | some ev =>
    rw [reached_succ he] at h
    exact ⟨ev, rfl, h⟩

instance (env : Env S) (n : Node S) : Decidable (Punctual env n) :=
  inferInstanceAs (Decidable (∀ x ∈ n.timers, env.oracle.clock n.pos ≤ x.1))

instance (n : Node S) (id : PeerId) : Decidable (n.Unbound id) :=
  inferInstanceAs (Decidable (∀ t ∈ n.staticTargets, t.learnedId ≠ some id))

instance (env : Env S) (es : List Event) (i : ℕ) (x : Notice) : Decidable (Reports env es i x) :=
  inferInstanceAs (Decidable (_ < _))

def Notice.parted : Notice → Option PeerId
  | .peerDisconnected id => some id
  | _ => none

instance (env : Env S) (n : Node S) (ev : Event) : Decidable (SeenLately env n ev) :=
  decidable_of_iff (∀ x ∈ (step env n ev).notices, ∀ id ∈ x.parted,
      n.notices.count (.peerDisconnected id) < (step env n ev).notices.count (.peerDisconnected id) →
        endOf env n ev + longestDelay env.cfg ≤ lastHeard env n id + env.cfg.peerLostTimeout)
    ⟨fun h id hlt => h _ (List.count_pos_iff.mp (Nat.zero_lt_of_lt hlt)) id rfl hlt, fun h _ _ id _ => h id⟩

def staircase (l : List (ℕ × ℕ)) (j : ℕ) : ℤ := (l.map fun x => if x.1 ≤ j then (x.2 : ℤ) else 0).sum

lemma staircase_monotone (l : List (ℕ × ℕ)) : Monotone (staircase l) := by
  intro i j hij
  refine List.sum_le_sum fun x _ => ?_
  split_ifs <;> omega

def Env.stepping (l : List (ℕ × ℕ)) : Env Suite.transparent :=
  { Env.plain (Octets.fill [1]) with oracle := { Oracle.calm Suite.transparent with clock := staircase l } }

def visited : List Event :=
  [.accept default, .receive 1 (encode (.hello false (Hello.plain (Octets.fill [2])))), .plaintextTurn 1,
    .timer 1, .timer 1, .timer 1, .receive 1 (encode (.heartbeat : Frame Suite.transparent)), .plaintextTurn 1]

def soonDropped : List Event :=
  visited ++ [.hangup 1, .timer 3, .broadcast [], .timer 2, .timer 1, .timer 1, .timer 1]

def soonDroppedTimes : List (ℕ × ℕ) :=
  [(19, 1000), (25, 1000), (34, 1000), (41, 400), (50, 500), (53, 100), (57, 1000), (61, 1000)]

def lateDropped : List Event :=
  visited ++ [.timer 1, .timer 1, .hangup 1, .timer 3, .broadcast [], .timer 1]

def lateDroppedTimes : List (ℕ × ℕ) :=
  [(19, 1000), (25, 1000), (34, 1000), (41, 1000), (50, 1000), (56, 900), (65, 100)]

end Multimaster
