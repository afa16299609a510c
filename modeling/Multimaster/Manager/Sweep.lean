import Multimaster.Manager.Liveness
import Multimaster.Manager.Discreet

/-! The liveness loop of `tick` runs over `conns_`, which must not change under it. Closing the
link of a static peer redials, and so appends to `conns_`. -/

namespace Multimaster

variable {S : Suite} {env : Env S} {k : ℕ}

def StaticsDown (n : Node S) : Prop :=
  ∀ e ∈ n.records.toList, e.2.isStatic = true → e.2.conn = none

lemma StaticsDown.of_get? {n : Node S} (h : StaticsDown n) {id : PeerId} {r : PeerRecord}
    (hr : n.records.get? id = some r) : r.isStatic = true → r.conn = none :=
  h (id, r) (Dict.mem_toList.mpr hr)

lemma StaticsDown.setRecord {n : Node S} (h : StaticsDown n) {id : PeerId} {r : PeerRecord}
    (hr : r.isStatic = true → r.conn = none) : StaticsDown (n.setRecord id r) := by
  rintro ⟨i, s⟩ hi
  have hi : (n.records.insert id r).get? i = some s := Dict.mem_toList.mp hi
  rw [Dict.get?_insert] at hi
  split_ifs at hi
  · cases hi
    exact hr
  · exact h.of_get? hi

def Still (n m : Node S) : Prop := StaticsDown n → StaticsDown m ∧ m.conns = n.conns

namespace Still

variable {n m o : Node S}

lemma of_eq (hr : m.records = n.records) (hc : m.conns = n.conns) : Still n m := by
  intro h
  refine ⟨?_, hc⟩
  rw [StaticsDown, hr]
  exact h

lemma trans (h : Still n m) (g : Still m o) : Still n o := by
  intro hn
  obtain ⟨hm, hc⟩ := h hn
  obtain ⟨ho, hc'⟩ := g hm
  exact ⟨ho, hc'.trans hc⟩

lemma reconnect (n : Node S) (id : PeerId) : Still n (scheduleReconnect env id n) := by
  intro h
  refine ⟨?_, reconnect_field Node.conns (fun _ _ _ _ => rfl) n id⟩
  rcases scheduleReconnect_cases env id n with he | ⟨r, d, hr, -, -, -, he⟩
  · rw [he]
    exact h
  · have hs := h.of_get? hr
    rw [he]
    exact StaticsDown.setRecord (n := n.bump) h hs

lemma bury (n : Node S) (p : Ptr) : Still n (buryLater env p n) :=
  .of_eq (bury_field Node.records (fun _ _ _ _ _ => rfl) n p)
    (bury_field Node.conns (fun _ _ _ _ _ => rfl) n p)

end Still

section Calls

variable (hR : (managerSink env k).Respects Still)

include hR

lemma forwardExcept_still (f : Frame S) (exceptFd : Option Ptr) (n : Node S) :
    Still n (forwardExcept (managerSink env k) f exceptFd n) := by
  unfold forwardExcept
  extract_lets targets
  generalize hm : (n.deref _).bump = m
  have hn : Still n m := hm ▸ .of_eq rfl rfl
  refine hn.trans ?_
  clear hm hn
  induction targets generalizing m with
  | nil => exact .of_eq rfl rfl
  | cons p ps ih =>
    have h₁ : Still m (m.deref [p]) := .of_eq rfl rfl
    exact (h₁.trans (hR.enqueue p f _)).trans (ih _)

lemma updateLocalMembership_still (n : Node S) :
    Still n (updateLocalMembership (managerSink env k) n) := by
  unfold updateLocalMembership applyMembership
  dsimp only
  split
  · exact .of_eq rfl rfl
  · refine .trans (.of_eq ?_ ?_) (forwardExcept_still hR _ _ _) <;> rfl

lemma closeRecord_still (p : Ptr) (id : PeerId) (n : Node S) :
    Still n (closeRecord (managerSink env k) p id n) := by
  intro h
  unfold closeRecord
  split
  · exact ⟨h, rfl⟩
  · next r hr =>
    split_ifs with hp hs
    · rw [h.of_get? hr hs] at hp
      cases hp
    · refine Still.trans ?_ (.reconnect _ id) h
      unfold releaseRecord
      extract_lets m
      have hm : Still n m := fun h => ⟨h.setRecord fun _ => rfl, rfl⟩
      split_ifs
      · have ht : Still m ((m.notify [.peerDisconnected r.id]).emitConnectedSnapshot env) := .of_eq rfl rfl
        exact (hm.trans ht).trans (updateLocalMembership_still hR _)
      · exact hm
    · exact ⟨h, rfl⟩

lemma onPeerClosed_still (p : Ptr) (n : Node S) : Still n (onPeerClosed (managerSink env k) p n) := by
  unfold onPeerClosed
  extract_lets n₁ owner n₂ n₃
  have h₂ : Still n n₂ := .of_eq rfl rfl
  have h₃ : Still n₂ n₃ := by
    unfold n₃
    cases owner with
    | none => exact .of_eq rfl rfl
    | some id => exact closeRecord_still hR p id n₂
  exact (h₂.trans h₃).trans (.bury n₃ p)

end Calls

section Closing

variable (hc : ∀ p n, Still n (closing env k p n))

include hc

lemma markDead_still (p : Ptr) (n : Node S) : Still n (markDead (managerSink env k) p n) := by
  unfold markDead
  split_ifs
  · exact .of_eq rfl rfl
  · have hk : Still n (n.setConn p (n.conn p).killed) := .of_eq rfl rfl
    exact hk.trans (hc p _)

lemma respects_still : (managerSink env k).Respects Still where
  refl n := .of_eq rfl rfl
  trans := Still.trans
  bump n := .of_eq rfl rfl
  touch n p f hf := .of_eq rfl rfl
  report n e := .of_eq rfl rfl
  fail n p cat err what _ := by
    unfold fail
    extract_lets c n₁ n₂
    have h₂ : Still n n₂ := by
      unfold n₂
      split <;> exact .of_eq rfl rfl
    split_ifs
    · exact .of_eq rfl rfl
    · exact h₂.trans (markDead_still hc p n₂)

end Closing

lemma closing_still (env : Env S) (k : ℕ) (p : Ptr) (n : Node S) : Still n (closing env k p n) := by
  induction k generalizing p n with
  | zero => exact .of_eq rfl rfl
  | succ k ih => exact onPeerClosed_still (respects_still ih) p n

lemma closeGracefully_still (p : Ptr) (n : Node S) :
    Still n (closeGracefully (managerSink env k) p n) :=
  (respects_still (closing_still env k)).closeGracefully p (markDead_still (closing_still env k) p) n

lemma sweepBody_still (now : ℤ) (n : Node S) (p : Ptr) :
    Still n (sweepBody (managerSink env k) now n p) := by
  have hR := respects_still (closing_still env k)
  unfold sweepBody
  extract_lets cfg
  split
  · have h := hR.maybeHeartbeat p now cfg.heartbeatInterval n
    split_ifs
    · exact h.trans (closeGracefully_still p _)
    · exact h
  iterate 3
    split_ifs
    · exact closeGracefully_still p n
    · exact .of_eq rfl rfl
  exact .of_eq rfl rfl

def Beats (env : Env S) (n : Node S) (p : Ptr) : Prop :=
  (env.cfg.overflowPolicy = .disconnect →
    (n.conn p).outBuf.length + (sealFrame (n.conn p) .heartbeat).1.length ≤ env.cfg.maxOutboundQueueBytes) ∧
  ∀ a ∈ env.oracle.send (n.pos + 1), a.fine = true

structure Timely (env : Env S) (now : ℤ) (n : Node S) (p : Ptr) : Prop where
  established : (n.conn p).state = .established → now - (n.conn p).lastRecv ≤ env.cfg.heartbeatTimeout ∧
    (now - (n.conn p).lastSend < env.cfg.heartbeatInterval ∨ Beats env n p)
  handshake : (n.conn p).state ≠ .established → (n.conn p).state ≠ .dead →
    now - (n.conn p).createdAt ≤ env.cfg.handshakeTimeout

lemma maybeHeartbeat_discreet {now : ℤ} {n : Node S} {p : Ptr}
    (h : now - (n.conn p).lastSend < env.cfg.heartbeatInterval ∨ Beats env n p) :
    Discreet n (maybeHeartbeat (managerSink env k) p now env.cfg.heartbeatInterval n) := by
  unfold maybeHeartbeat
  extract_lets c
  split_ifs with hs hdue
  · exact .refl n
  · rcases h with h | h
    · exact absurd hdue (not_le.mpr h)
    · exact enqueue_discreet k p _ h.1 h.2
  · exact .refl n

lemma sweepBody_timely {now : ℤ} {n : Node S} {p : Ptr} (h : Timely env now n p) :
    (sweepBody (managerSink env k) now n p).conns = n.conns := by
  unfold sweepBody
  extract_lets cfg
  cases hs : (n.conn p).state with
  | established =>
    obtain ⟨hrecv, hbeat⟩ := h.established hs
    have hd := maybeHeartbeat_discreet (k := k) hbeat
    have hr := (hd.conn p).field PeerConnection.lastRecv fun _ => rfl
    dsimp only
    split_ifs with ht
    · exact absurd ht (not_lt.mpr (hr ▸ hrecv))
    · exact hd.conns
  | handshaking | awaitingConfirm | connectingOut =>
    have hc := h.handshake (by rw [hs]; decide) (by rw [hs]; decide)
    dsimp only
    split_ifs with ht
    · exact absurd ht (not_lt.mpr hc)
    · rfl
  | dead => rfl

def Swept (env : Env S) (k : ℕ) (now : ℤ) : Node S → List Ptr → Prop
  | _, [] => True
  | n, p :: ps => (StaticsDown n ∨ Timely env now n p) ∧
      Swept env k now (sweepBody (managerSink env k) now n p) ps

lemma Swept.conns {now : ℤ} {n : Node S} (l : List Ptr) {l' : List Ptr} (h : Swept env k now n (l ++ l')) :
    (l.foldl (sweepBody (managerSink env k) now) n).conns = n.conns := by
  induction l generalizing n with
  | nil => rfl
  | cons p l ih =>
    have hp : (sweepBody (managerSink env k) now n p).conns = n.conns := by
      rcases h.1 with hd | ht
      · exact (sweepBody_still now n p hd).2
      · exact sweepBody_timely ht
    exact (ih h.2).trans hp

/-- The node when the `i`-th timer fires a `tick` and its loop starts. -/
def Node.ticking (n : Node S) (i : ℕ) : Node S := Node.bump { n with timers := n.timers.eraseIdx i }

theorem sweep_keeps_conns (env : Env S) (es : List Event)
    (h : Along env (NoZeroHello env) (started env) es) (i : ℕ) (now : ℤ)
    (hs : Swept env (depth (run env es)) now ((run env es).ticking i) (run env es).conns) :
    (run env es).conns.Nodup ∧ ∀ l l', (run env es).conns = l ++ l' →
      (l.foldl (sweepBody (managerSink env (depth (run env es))) now) ((run env es).ticking i)).conns =
        (run env es).conns := by
  refine ⟨by simpa using (live_run h).once, fun l l' hl => ?_⟩
  rw [hl] at hs
  exact hs.conns l

instance (n : Node S) : Decidable (StaticsDown n) :=
  inferInstanceAs (Decidable (∀ e ∈ n.records.toList, e.2.isStatic = true → e.2.conn = none))

instance (env : Env S) (n : Node S) (p : Ptr) : Decidable (Beats env n p) := instDecidableAnd

instance (env : Env S) (now : ℤ) (n : Node S) (p : Ptr) : Decidable (Timely env now n p) :=
  decidable_of_iff (((n.conn p).state = .established → now - (n.conn p).lastRecv ≤ env.cfg.heartbeatTimeout ∧
      (now - (n.conn p).lastSend < env.cfg.heartbeatInterval ∨ Beats env n p)) ∧
    ((n.conn p).state ≠ .established → (n.conn p).state ≠ .dead →
      now - (n.conn p).createdAt ≤ env.cfg.handshakeTimeout))
    ⟨fun ⟨a, b⟩ => ⟨a, b⟩, fun h => ⟨h.established, h.handshake⟩⟩

instance decidableSwept (env : Env S) (k : ℕ) (now : ℤ) : ∀ n ps, Decidable (Swept env k now n ps)
  | _, [] => .isTrue trivial
  | n, p :: ps => @instDecidableAnd _ _ _ (decidableSwept env k now (sweepBody (managerSink env k) now n p) ps)

theorem sweep_keeps_conns_silent :
    (run (.plain (Octets.fill [1])) (greeted (Octets.fill [2]))).conns = [1] ∧
    ([1].foldl (sweepBody (managerSink (.plain (Octets.fill [1]))
        (depth (run (.plain (Octets.fill [1])) (greeted (Octets.fill [2]))))) 9000)
      ((run (.plain (Octets.fill [1])) (greeted (Octets.fill [2]))).ticking 1)).conns =
        (run (.plain (Octets.fill [1])) (greeted (Octets.fill [2]))).conns := by
  have hc : (run (.plain (Octets.fill [1])) (greeted (Octets.fill [2]))).conns = [1] := by decide +kernel
  refine ⟨hc, (sweep_keeps_conns _ _ ?_ 1 9000 ?_).2 [1] [] hc⟩
  · decide
  · decide +kernel

def staticUp : List Event :=
  [.connected 1, .receive 1 (encode (.hello true (Hello.plain (Octets.fill [2])))), .plaintextTurn 1]

theorem static_timeout_grows :
    ((run .persistent staticUp).ticking 1).conns = [1] ∧
    (sweepBody (managerSink .persistent (depth (run .persistent staticUp)))
      (Env.persistent.oracle.clock (run .persistent staticUp).pos)
      ((run .persistent staticUp).ticking 1) 1).conns = [1, 2] := by
  decide +kernel

end Multimaster
