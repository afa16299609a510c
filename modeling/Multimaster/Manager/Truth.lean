import Multimaster.Manager.Introducing

/-! In every run in which the handshakes are orderly, the application is told the truth. -/

namespace Multimaster

variable {S : Suite} {env : Env S} {k : ℕ}

def toldLicense (env : Env S) : License S where
  hello _ _ h := h.nodeId.isZero = false
  complete n p := (∀ old, Outdated n p (n.conn p).peerId old → n.estab.get? old = none) ∧
    (n.estab.get? (n.conn p).peerId = none → env.self.hasIdentity = true → Deliverable env 4 n (n.conn p))
  clear := False

lemma Told.linkStep {n m : Node S} (h : Told n) (hl : Live [] n) (mv : LinkStep env k (toldLicense env) n m) :
    Told m := by
  cases mv with
  | linkChanges e => exact h.linkChanges hl e
  | close p hp e => exact ((h.unlink hl p).linkChanges (hl.unlink hp) e).bury p
  | quiet q =>
    exact h.congr q.estab q.neighbors q.notices fun id => by rw [Node.connectedRecord, q.records]; rfl
  | establish p hello hp hs ha hk =>
    have hne : (n.conn p).state ≠ .established := by
      rcases hs with ⟨hs, -⟩ | hs <;> rw [hs] <;> decide
    have hz : (n.conn p).peerId.isZero = false := by
      rcases hs with ⟨-, hi, ha⟩ | hs
      · rw [hi]
        exact ha
      · exact hl.await p _ (Node.get?_of_alive hp) hs
    have hl₁ : Live [] (n.setConn p (n.conn p).completed) :=
      hl.setConn rfl (.inl (hl.not_linked hne)) ConnState.noConfusion
    have h₁ : Told (n.setConn p (n.conn p).completed) := h.same rfl rfl rfl rfl
    rcases completed_cases env hello hl.owned hk hp with hc | ⟨l, r, hlr, hr, hkr, hc, ho⟩
    · exact h₁.closed hl₁ hc
    · refine (h₁.learned hlr hr hkr ha.1).outcome (hl₁.learned hlr) hc hp rfl rfl hz ?_ ?_ ?_ ho
      · rw [Node.record_of_get? hr, hkr.1]
      · rw [hlr.estab]
        exact hl.not_linked hne _
      · intro hnone
        rw [hlr.estab] at hnone
        exact sendIdentity_discreet (n := n) hc hlr.selfIdVersion hlr.pos (ha.2 hnone)
  | refresh id r hr =>
    refine h.setRecord ?_ fun hs => ⟨hr.key.trans (h.linked.id_of_connected hs).symm, hr.conn⟩
    rcases hr.state with hs | ⟨hs, hs'⟩
    · rw [hs]
    · rw [hs, hs']
      decide
  | lose id hr =>
    refine h.congr rfl rfl ⟨[], (List.append_nil _).symm, by simp⟩ fun i => ?_
    rw [Node.connectedRecord, Dict.get?_erase]
    split_ifs with hi
    · subst hi
      cases hn : n.records.get? i with
      | none => rw [Node.connectedRecord, hn]
      | some r => rw [connectedRecord_of_get? hn, if_neg (hr r hn).1, Option.bind_none]
    · rfl
  | dial id r hr hi hs hc =>
    have h₁ : Told (newOutbound env r.dialAddr n).2 := h.same rfl rfl rfl rfl
    have hrec := Node.record_of_get? (n := (newOutbound env r.dialAddr n).2) hr
    exact h₁.setRecord (by rw [hrec]; simp [hs]) (by rw [hrec]; exact fun k => absurd k hs)
  | accept p c hp hs hd hi e =>
    have hl₁ : Live [p] { n with heap := n.heap.insert p c } := by
      refine hl.alloc hp (by rw [hs]; decide) rfl ?_ rfl rfl rfl rfl
      rw [List.append_nil]
      exact List.perm_append_singleton _ _
    have h₁ : Told { n with heap := n.heap.insert p c } := h.same rfl rfl rfl rfl
    exact (h₁.linkChanges hl₁ e).same rfl rfl rfl rfl
  | clear m hc => exact hc.elim
  | _ => exact h.same rfl rfl rfl rfl

def nextPeer (env : Env S) (n : Node S) (p : Ptr) : Option PeerId :=
  match tryDecodeFrame (n.conn p).inBuf env.cfg.maxMessageBytes with
  | .ok (.hello _ h) _ =>
    if Accepts env.self (n.conn p) h ∧ (n.conn p).secure = false then some h.nodeId else none
  | .ok (.authConfirm _ _) _ =>
    if (n.conn p).state = .awaitingConfirm then some (n.conn p).peerId else none
  | _ => none

lemma nextPeer_of_completes {n : Node S} {p : Ptr} {f : Frame S} {id : PeerId} {consumed : ℕ}
    (hd : tryDecodeFrame (n.conn p).inBuf env.cfg.maxMessageBytes = .ok f consumed)
    (hc : Completes env.self (n.conn p) f id) : nextPeer env n p = some id := by
  cases hc with
  | hello ack h ha hp => simp only [nextPeer, hd, ha, hp, and_self, if_true]
  | confirm tag sig hs => simp only [nextPeer, hd, hs, if_true]

def Rebindable (n : Node S) (p : Ptr) (id : PeerId) : Prop :=
  ∀ i ∈ n.staticDialConn.get? p, ∀ t ∈ n.staticTargets[i]?, ∀ old ∈ t.learnedId,
    old ≠ id → n.estab.get? old = none

/-- The step is not the shutdown, and the handshake that it may complete is orderly. -/
structure Orderly (env : Env S) (n : Node S) (e : Event) : Prop where
  running : e ≠ .shutdown
  nonzero : NoZeroHello env n e
  complete : ∀ p, e = .plaintextTurn p → ∀ id ∈ nextPeer env n p, Rebindable n p id ∧
    (n.estab.get? id = none → env.self.hasIdentity = true → Deliverable env 5 n (n.conn p))

instance (env : Env S) (w : ℕ) (n : Node S) (c : PeerConnection S) : Decidable (Deliverable env w n c) :=
  instDecidableAnd

instance (n : Node S) (p : Ptr) (id : PeerId) : Decidable (Rebindable n p id) :=
  inferInstanceAs (Decidable (∀ i ∈ n.staticDialConn.get? p, ∀ t ∈ n.staticTargets[i]?,
    ∀ old ∈ t.learnedId, old ≠ id → n.estab.get? old = none))

def Event.decidableShutdown : (e : Event) → Decidable (e ≠ .shutdown)
  | .shutdown => .isFalse fun h => h rfl
  | .discovered .. | .accept .. | .hangup .. | .connected .. | .writable .. | .receive .. | .eof ..
  | .recvError .. | .plaintextTurn .. | .recordTurn .. | .secureTurn .. | .timer .. | .broadcast ..
  | .send .. => .isTrue Event.noConfusion

instance (env : Env S) (n : Node S) (e : Event) : Decidable (Orderly env n e) :=
  have : Decidable (e ≠ .shutdown) := e.decidableShutdown
  have := Event.decidableTurn e fun p => ∀ id ∈ nextPeer env n p, Rebindable n p id ∧
    (n.estab.get? id = none → env.self.hasIdentity = true → Deliverable env 5 n (n.conn p))
  decidable_of_iff (e ≠ .shutdown ∧ NoZeroHello env n e ∧ ∀ p, e = .plaintextTurn p →
      ∀ id ∈ nextPeer env n p, Rebindable n p id ∧
        (n.estab.get? id = none → env.self.hasIdentity = true → Deliverable env 5 n (n.conn p)))
    ⟨fun ⟨a, b, c⟩ => ⟨a, b, c⟩, fun h => ⟨h.running, h.nonzero, h.complete⟩⟩

lemma Orderly.licensed {n : Node S} {e : Event} (h : Orderly env n e) :
    e.Licensed (toldLicense env) env n := by
  refine ⟨fun p f consumed he hd => ⟨?_, ?_⟩, h.running⟩
  · rintro ack hl rfl ha -
    exact h.nonzero p he hl (nextHello_of_decode hd ha)
  · intro d ⟨hout, hsess, hsec⟩ hcomp
    by_cases hp : (n.heap.get? p).isSome
    · have hcon : (n.bump.setConn p d).conn p = d := Node.conn_setConn_self d hp
      obtain ⟨hreb, hdel⟩ := h.complete p he d.peerId (nextPeer_of_completes hd hcomp)
      refine ⟨?_, ?_⟩
      · rintro old ⟨i, t, hi, ht, hold, hne⟩
        rw [hcon] at hne
        exact hreb i hi t ht old hold hne
      · rw [hcon]
        intro hnone hid
        obtain ⟨hfit, hsend⟩ := hdel hnone hid
        refine ⟨fun hpol => ?_, fun j hj a ha => hsend (j + 1) (by omega) a ?_⟩
        · have hseal (f : Frame S) : sealFrame d.completed f = sealFrame (n.conn p).completed f := by
            simp only [sealFrame, hsess, hsec]
          rw [hout, hseal]
          exact hfit hpol
        · rwa [show n.pos + (j + 1) = n.bump.pos + j by simp only [Node.bump]; omega]
    · -- nothing can be read from a connection that does not exist
      rw [Option.not_isSome_iff_eq_none] at hp
      rw [Node.conn, hp] at hd
      cases hd

lemma Blank.told {n : Node S} (h : Blank n) : Told n := by
  have hkeys : n.estab.keys = [] := by
    rw [h.estab]
    rfl
  constructor
  · rw [h.notices, hkeys]
    exact ⟨fun _ => .nil, fun _ => by simp [calls], fun _ => by simp [calls]⟩
  · rw [h.notices, hkeys]
    exact .nil
  · rw [h.neighbors, hkeys]
  · rw [h.neighbors]
    exact .nil
  · intro id
    rw [Node.connectedRecord, h.records, h.estab]
    rfl

lemma told_linkSteps {n m : Node S} (h : Live [] n ∧ Told n) (mv : LinkSteps env k (toldLicense env) n m) :
    Live [] m ∧ Told m := by
  have step {n m : Node S} (mv : LinkStep env k (toldLicense env) n m) (h : Live [] n ∧ Told n) :
      Live [] m ∧ Told m :=
    ⟨h.1.linkStep (LinkStep.mono (A := toldLicense env) (B := nonzeroLicense S) (fun ha => ha) (fun _ => trivial)
      False.elim mv),
      h.2.linkStep h.1 mv⟩
  exact LinkSteps.preserves (I := fun n => Live [] n ∧ Told n) step mv h

lemma told_run {es : List Event} (h : Along env (Orderly env) (started env) es) : Told (run env es) := by
  refine (run_induction (I := fun n => Live [] n ∧ Told n) ?_ (fun n e hn he => ?_) h).2
  · obtain ⟨n, hn, hm⟩ := started_linkSteps env (toldLicense env)
    exact told_linkSteps ⟨hn.live, hn.told⟩ hm
  · exact told_linkSteps hn (step_linkSteps hn.1.owned he.licensed)

theorem told_truth (env : Env S) (es : List Event) (h : Along env (Orderly env) (started env) es) :
    (∀ id, (calls id (run env es).notices).IsChain (· ≠ ·) ∧
      (calls id (run env es).notices).head? ≠ some false ∧
      ((calls id (run env es).notices).getLast? = some true ↔ id ∈ (run env es).estab.keys)) ∧
    (lastSnapshot (run env es).notices).Perm (run env es).estab.keys ∧
    (run env es).membership.selfNeighbors.Perm (run env es).estab.keys ∧
    (run env es).membership.selfNeighbors.Pairwise (fun a b => a.lt b = true) := by
  have ht := told_run h
  exact ⟨fun id => ⟨ht.turns.chain id, ht.turns.first id, ht.turns.up id⟩, ht.snapshot, ht.neighbors, ht.sorted⟩

def Env.identified (broken : ℕ) : Env Suite.transparent where
  cfg := {}
  self := { LocalIdentity.plain (Octets.fill [1]) with
    secure := true, hasIdentity := true, idKeys := ⟨Octets.fill [1], Octets.fill [1]⟩ }
  oracle := { Oracle.calm Suite.transparent with send := fun j => if j = broken then [.error 104] else [.wrote 4096] }

def identifiedGreeted : List Event :=
  [.accept default, .receive 1 (encode (.hello false (Hello.identified [2]))), .plaintextTurn 1,
    .receive 1 (encode (S := Suite.transparent) (.authConfirm identifiedTag (some (Octets.zero 64)))),
    .plaintextTurn 1]

theorem told_truth_identified :
    Along (.identified 0) (Orderly (.identified 0)) (started (.identified 0)) identifiedGreeted ∧
    calls (Octets.fill [2]) (run (.identified 0) identifiedGreeted).notices = [true] ∧
    (lastSnapshot (run (.identified 0) identifiedGreeted).notices).Perm
      (run (.identified 0) identifiedGreeted).estab.keys := by
  have h : Along (.identified 0) (Orderly (.identified 0)) (started (.identified 0)) identifiedGreeted := by
    decide +kernel
  exact ⟨h, by decide +kernel, (told_truth _ _ h).2.1⟩

def rebound : List Event :=
  [.connected 1, .receive 1 (encode (.hello true (Hello.plain (Octets.fill [2])))), .plaintextTurn 1,
    .hangup 1,
    .accept default, .receive 3 (encode (.hello false (Hello.plain (Octets.fill [2])))), .plaintextTurn 3,
    .connected 2, .receive 2 (encode (.hello true (Hello.plain (Octets.fill [4])))), .plaintextTurn 2,
    .hangup 3]

theorem told_wrong :
    (calls (Octets.fill [2]) (run .persistent rebound).notices = [true, false, true] ∧
      Octets.fill [2] ∉ (run .persistent rebound).estab.keys) ∧
    (calls (Octets.fill [2]) (run (.identified 18) identifiedGreeted).notices = [false, true] ∧
      (run (.identified 18) identifiedGreeted).estab.keys = []) ∧
    (calls (Octets.zero 16) (run (.plain (Octets.fill [1])) (greeted (Octets.zero 16) ++ [.hangup 1])).notices =
        [true, false] ∧
      (run (.plain (Octets.fill [1])) (greeted (Octets.zero 16) ++ [.hangup 1])).estab.keys =
        [Octets.zero 16]) := by
  decide +kernel

end Multimaster
