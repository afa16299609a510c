import Multimaster.Manager.StaticBooks

/-! The peers behind the static endpoints keep their records and are not reported as lost, except when one endpoint of a
peer that has two answers with a new id. -/

namespace Multimaster

variable {S : Suite}
variable {env : Env S} {A : Permit S} {s t : Juncture S} {id : PeerId}

def Held (n : Node S) : Prop := ∀ id, Behind n id → Fixed n id

def staticPermit (S : Suite) : Permit S where
  bind n p pid := ∀ i t old, n.staticDialConn.get? p = some i → n.staticTargets[i]? = some t →
    t.learnedId = some old → old ≠ pid → ∀ j u, j ≠ i → n.staticTargets[j]? = some u → u.learnedId ≠ some old
  lose := True
  reap := True
  clear := True

lemma bindStatic_get? {n : Node S} {p : Ptr} {pid : PeerId} (h : ¬ Outdated n p pid id) :
    (bindStatic env p pid n).records.get? id = n.records.get? id := by
  obtain ⟨ts, d, hb | ⟨old, ho, hb⟩⟩ := bindStatic_cases env p pid n
  · rw [hb]
  · rw [hb]
    change (n.records.erase old).get? id = _
    rw [Dict.get?_erase, if_neg (by rintro rfl; exact h ho)]

lemma Held.learned {n : Node S} (h : Held n) {p : Ptr} (hello : Hello S)
    (ha : (staticPermit S).bind n p (n.conn p).peerId) : Held (learned env p hello n) := by
  let pid := (n.conn p).peerId
  let b := bindStatic env p pid n
  let r := refreshed env p pid hello (n.staticDialConn.get? p).isSome b
  have hrec : (Multimaster.learned env p hello n).records = b.records.insert pid r := recorded_records env r
  rintro id ⟨j, u, hu, hl⟩
  rw [learned_targets] at hu
  split_ifs at hu with hp
  · -- the endpoint that has just answered
    obtain ⟨v, -, rfl⟩ := Option.map_eq_some_iff.mp hu
    cases hl
    rw [Fixed, hrec]
    refine ⟨r, Dict.get?_insert_self .., ?_⟩
    change ((Node.record pid b).isStatic || (n.staticDialConn.get? p).isSome) = true
    rw [hp, Option.isSome_some, Bool.or_true]
  · -- another endpoint, whose record is not the one that is dropped
    have hkept : ¬ Outdated n p pid id := by
      rintro ⟨i, t, hi, ht, hold, hne⟩
      refine ha i t id hi ht hold hne j u ?_ hu hl
      rintro rfl
      exact hp hi
    obtain ⟨r₀, hr₀, hst⟩ := h id ⟨j, u, hu, hl⟩
    have hb : Fixed b id := ⟨r₀, (bindStatic_get? hkept).trans hr₀, hst⟩
    refine fixed_insert hrec (fun hid hold => ?_) hb
    change ((Node.record pid b).isStatic || _) = true
    rw [← hid, hold, Bool.true_or]

lemma BookStep.held (h : BookStep env (staticPermit S) s t) (hs : Held s.node) : Held t.node := by
  rcases h.split with ⟨p, hello, ha, ht⟩ | ht | hq
  · rw [ht]
    exact hs.learned hello ha
  · rintro id ⟨i, u, hu, -⟩
    rw [ht] at hu
    cases hu
  · exact fun id hl => hq.fixed (hs id (hq.behind.mp hl))

def Sole (n : Node S) (i : ℕ) (id : PeerId) : Prop :=
  ∀ j < n.staticTargets.length, j ≠ i → ∀ t ∈ n.staticTargets[j]?, t.learnedId ≠ some id

instance (n : Node S) (i : ℕ) (id : PeerId) : Decidable (Sole n i id) :=
  Nat.decidableBallLT _ _

/-- The handshake that the event may complete does not give a static endpoint a new id while another endpoint has the
old one. -/
def Unshared (env : Env S) (n : Node S) (e : Event) : Prop :=
  ∀ p, e = .plaintextTurn p → ∀ id ∈ nextPeer env n p, id ≠ env.self.nodeId →
    ∀ i ∈ n.staticDialConn.get? p, ∀ t ∈ n.staticTargets[i]?, ∀ old ∈ t.learnedId, old ≠ id → Sole n i old

instance (env : Env S) (n : Node S) (e : Event) : Decidable (Unshared env n e) := e.decidableTurn _

lemma Unshared.permitted {n : Node S} {e : Event} (h : Unshared env n e) : e.Permitted (staticPermit S) env n := by
  refine ⟨fun p f consumed pid m he hd hc hm hi i t old hget ht hold hne j u hj hu => ?_, fun _ _ => trivial,
    fun _ _ _ _ => trivial, fun _ => trivial⟩
  rw [hm.staticDialConn] at hget
  rw [hm.staticTargets] at ht hu
  exact h p he pid (nextPeer_of_completes hd hc) hi i hget t ht old hold hne j
    (List.getElem?_eq_some_iff.mp hu).1 hj u hu

lemma held_run {es : List Event} (h : Along env (Unshared env) (started env) es) : Held (run env es) := by
  refine books_induction (I := fun s => Held s.node) ?_ (fun h hs => h.held hs) (fun n e _ he => he.permitted) h
  rintro id ⟨i, t, ht, -⟩
  cases ht

lemma step_losses (n : Node S) {e : Event} (he : ∀ i, e ≠ .timer i) : losses id (step env n e) = losses id n := by
  let A : Permit S := ⟨fun _ _ _ => True, False, True, True⟩
  have hp : e.Permitted A env n := ⟨fun _ _ _ _ _ _ _ _ _ _ => trivial, fun i hi => he i hi, fun _ _ _ _ => trivial,
    fun _ => trivial⟩
  refine BookSteps.preserves (I := fun s => losses id s.node = losses id n) (fun {s t} h hs => ?_) (step_bookSteps hp)
    rfl
  refine Eq.trans ?_ hs
  cases h with
  | bookChange h => exact h.losses
  | learn p hello hg ha =>
    refine (recorded_losses env _).trans ?_
    obtain ⟨ts, d, hb | ⟨old, -, hb⟩⟩ := bindStatic_cases env p (s.node.conn p).peerId s.node
    · rw [hb]
      rfl
    · rw [hb]
      exact losses_append rfl (by simp)
  | meet id' r hst ha => exact recorded_losses env r
  | lose ids ha hn h => exact ha.elim
  | _ => rfl

lemma timer_losses {n : Node S} (hn : Held n) (i : ℕ) : (Behind (step env n (.timer i)) id → Behind n id) ∧
    (Behind n id → losses id (step env n (.timer i)) = losses id n) := by
  let A : Permit S := Permit.quiet (.all S)
  have hp : (Event.timer i).Permitted A env n := by
    refine ⟨?_, fun _ _ => trivial, fun _ _ _ _ => trivial, ?_⟩
    · intro p f consumed pid m he
      cases he
    · intro he
      cases he
  have h : (Behind (step env n (.timer i)) id ↔ Behind n id) ∧
      (Fixed n id → Fixed (step env n (.timer i)) id ∧ losses id (step env n (.timer i)) = losses id n) := by
    refine BookSteps.preserves (I := fun s => (Behind s.node id ↔ Behind n id) ∧
      (Fixed n id → Fixed s.node id ∧ losses id s.node = losses id n)) (fun h hs => ?_) (step_bookSteps hp)
      ⟨Iff.rfl, fun hf => ⟨hf, rfl⟩⟩
    refine ⟨h.behind.trans hs.1, fun hf => ?_⟩
    obtain ⟨hfix, hlost⟩ := hs.2 hf
    exact ⟨h.fixed hfix, (h.losses_fixed hfix).trans hlost⟩
  exact ⟨h.1.mp, fun hl => (h.2 (hn id hl)).2⟩

theorem static_peers_kept (env : Env S) (es : List Event) (h : Along env (Unshared env) (started env) es) :
    (∀ id, Behind (run env es) id → ∃ r, (run env es).records.get? id = some r ∧ r.isStatic = true) ∧
    ∀ e id, Behind (run env es) id ∨ Behind (step env (run env es) e) id →
      (step env (run env es) e).notices.count (.peerLost id) = (run env es).notices.count (.peerLost id) := by
  have hn := held_run h
  refine ⟨hn, fun e id hl => ?_⟩
  by_cases he : ∃ i, e = .timer i
  · obtain ⟨i, rfl⟩ := he
    obtain ⟨hback, hlost⟩ : (Behind (step env (run env es) (.timer i)) id → Behind (run env es) id) ∧ _ :=
      timer_losses hn i
    exact hlost (hl.elim (fun hl => hl) hback)
  · exact step_losses _ fun i hi => he ⟨i, hi⟩

def Env.doubled : Env Suite.transparent where
  cfg := { staticPeers := [⟨"peer", 7000⟩, ⟨"alias", 7000⟩] }
  self := .plain (Octets.fill [1])
  oracle := { Oracle.calm Suite.transparent with clock := fun j => 1000 * j }

def doublyAnswered : List Event := answer 1 (Octets.fill [2]) ++ answer 2 (Octets.fill [2]) ++ [.hangup 1]

theorem static_peers_kept_doubled :
    Along .doubled (Unshared .doubled) (started .doubled) doublyAnswered ∧
    Behind (run .doubled doublyAnswered) (Octets.fill [2]) ∧
    ∃ r, (run .doubled doublyAnswered).records.get? (Octets.fill [2]) = some r ∧ r.isStatic = true := by
  have h : Along .doubled (Unshared .doubled) (started .doubled) doublyAnswered := by decide +kernel
  have hb : Behind (run .doubled doublyAnswered) (Octets.fill [2]) := ⟨0, _, rfl, rfl⟩
  exact ⟨h, hb, (static_peers_kept _ _ h).1 _ hb⟩

theorem static_peer_lost :
    ((run .doubled (doublyAnswered ++ answer 3 (Octets.fill [4]))).staticTargets.map (·.learnedId) =
        [some (Octets.fill [4]), some (Octets.fill [2])] ∧
      Octets.fill [2] ∉ (run .doubled (doublyAnswered ++ answer 3 (Octets.fill [4]))).records.keys) ∧
    (Notice.peerLost (Octets.fill [2]) ∈ (run .doubled (doublyAnswered ++ answer 3 (Octets.fill [4]) ++
        [.discovered (Octets.fill [2]) 7000 0, .timer 1, .timer 2])).notices ∧
      (run .doubled (doublyAnswered ++ answer 3 (Octets.fill [4]) ++
        [.discovered (Octets.fill [2]) 7000 0, .timer 1, .timer 2])).staticTargets.map (·.learnedId) =
          [some (Octets.fill [4]), some (Octets.fill [2])]) := by
  decide +kernel

end Multimaster
