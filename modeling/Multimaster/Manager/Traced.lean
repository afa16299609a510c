import Multimaster.Connection.Draining
import Multimaster.Manager.Liveness
import Multimaster.Manager.Sealing
import Multimaster.Wire.Stability

/-! What a connection of a node with a group key takes in, and what it comes from. -/

namespace Multimaster

variable {S : Suite} {env : Env S} {k : ℕ}

abbrev Past (S : Suite) := Bytes × List Bytes × List (Source × Frame S)

def Past.stamp (src : Source) (f : Frame S) (x : Past S) : Past S := (x.1, x.2.1, x.2.2 ++ [(src, f)])

def Past.eat (src : Source) (n : ℕ) (x : Past S) : Past S :=
  (if src = .plainBuf then x.1.drop n else x.1, x.2)

lemma consume_past (src : Source) (n : ℕ) (c : PeerConnection S) :
    (consume src n c).past = Past.eat src n c.past := by
  cases src <;> rfl

lemma consume_sealable {src : Source} {n : ℕ} {c : PeerConnection S} (h : Sealable c) :
    Sealable (consume src n c) := by
  cases src <;> exact h

lemma Guarded.consume {src : Source} {n : ℕ} {c : PeerConnection S} (h : Guarded c) :
    Guarded (consume src n c) := by
  cases src <;> exact ⟨h.secure, h.keyed, h.sent⟩

def Takes (p : Ptr) (g : Past S → Past S) (n m : Node S) : Prop :=
  Secured n → Secured m ∧ (∀ q, q ≠ p → Came (n.heap.get? q) (m.heap.get? q)) ∧
    ∀ c, n.heap.get? p = some c → ∃ d, m.heap.get? p = some d ∧ (c.dead = true → d.dead = true) ∧
      (d.dead = true ∨ d.past = g c.past)

section Takes

variable {p : Ptr} {g h : Past S → Past S} {n m o : Node S}

lemma Came.some {c : PeerConnection S} {d : Option (PeerConnection S)} (h : Came (some c) d) :
    ∃ e, d = some e ∧ Carried c e := by
  cases h with
  | kept h => exact ⟨_, rfl, h⟩

lemma Guards.takes (e : Guards n m) : Takes p id n m := by
  intro hn
  obtain ⟨hm, hnm⟩ := e hn
  refine ⟨hm, fun q _ => hnm q, fun c hc => ?_⟩
  have := hnm p
  rw [hc] at this
  obtain ⟨d, hd, hcd⟩ := this.some
  exact ⟨d, hd, hcd.dead, .inr hcd.past⟩

lemma Takes.trans (e : Takes p g n m) (f : Takes p h m o) : Takes p (h ∘ g) n o := by
  intro hn
  obtain ⟨hm, hnm, hp⟩ := e hn
  obtain ⟨ho, hmo, hp'⟩ := f hm
  refine ⟨ho, fun q hq => (hnm q hq).trans (hmo q hq), fun c hc => ?_⟩
  obtain ⟨d, hd, hcd, hg⟩ := hp c hc
  obtain ⟨x, hx, hdx, hh⟩ := hp' d hd
  refine ⟨x, hx, fun hc => hdx (hcd hc), ?_⟩
  rcases hg with hg | hg
  · exact .inl (hdx hg)
  · rw [hg] at hh
    exact hh

lemma Takes.set {d : PeerConnection S} (hd : Guarded (n.conn p) → Guarded d)
    (hs : Sealable (n.conn p) → Sealable d) (hdead : d.dead = (n.conn p).dead)
    (hpast : d.past = g (n.conn p).past) : Takes p g n (n.setConn p d) := by
  intro hn
  refine ⟨hn.set hd hs, fun q hq => ?_, fun c hc => ?_⟩
  · rw [Node.get?_setConn, if_neg fun h => hq h.1]
    exact .refl _
  · rw [Node.get?_setConn, if_pos ⟨rfl, by rw [hc, Option.isSome_some]⟩]
    rw [Node.conn_of_get? hc] at hdead hpast
    exact ⟨d, rfl, hdead.trans, .inr hpast⟩

lemma Takes.of_dead (e : Guards n m) (hd : (m.conn p).dead = true) : Takes p g n m := by
  intro hn
  obtain ⟨hm, hnm, hp⟩ := e.takes (p := p) hn
  refine ⟨hm, hnm, fun c hc => ?_⟩
  obtain ⟨d, hd', -⟩ := hp c hc
  rw [Node.conn_of_get? hd'] at hd
  exact ⟨d, hd', fun _ => hd, .inl hd⟩

variable (hsec : env.self.secure = true)

include hsec

lemma Takes.fail (cat : ErrorCategory) (err : ℤ) (what : String) :
    Takes p g n (fail (managerSink env k) p cat err what n) := by
  intro hn
  refine Takes.of_dead (fail_guards (closing_guards hsec k) p cat err what n) ?_ hn
  unfold Multimaster.fail
  extract_lets c n₁ n₂
  have h₁ : Guards n n₁ := .modify p (by intro; rfl) n
  have h₂ : Guards n₁ n₂ := by
    unfold n₂
    split <;> exact .of_fields rfl rfl
  split_ifs with hd
  · exact hd
  · unfold markDead
    split_ifs with hd'
    · exact hd'
    · -- closing keeps the connection that it closes, and keeps it dead
      have hs := (h₁.trans h₂ hn).1
      have hk := Guards.set (n := n₂) (p := p) Guarded.killed (.killed _)
      have hc := (closing_guards hsec k p _ (hk hs).1).2 p
      have hp : n₂.heap.get? p = some (n₂.conn p) := Node.get?_of_alive (eq_false_of_ne_true hd')
      rw [Node.get?_setConn_self _ (by rw [hp, Option.isSome_some])] at hc
      obtain ⟨d, hd, hcd⟩ := hc.some
      exact (congrArg PeerConnection.dead (Node.conn_of_get? hd)).trans (hcd.dead rfl)

lemma establish_takes (x : Hello S) (hp : n.heap.get? p = some (n.conn p))
    (hs : (n.conn p).state = .awaitingConfirm) :
    Takes p id n (establish (managerListener env k) p x n).2 := by
  let m := n.setConn p { n.conn p with state := .established }
  have hm : Takes p id n m :=
    .set (fun hg => ⟨hg.secure, fun _ => hg.keyed (.inl hs), hg.sent⟩) (fun _ => .inr rfl) rfl rfl
  have hp' : ∃ c, m.heap.get? p = some c ∧ Sealable c :=
    ⟨_, Node.get?_setConn_self _ (by rw [hp, Option.isSome_some]), .inr rfl⟩
  exact hm.trans (onPeerHandshake_guards hsec x hp').takes

lemma awaitConfirm_takes (x : Hello S) (hr : HandshakeResult S) (hs : (n.conn p).state = .handshaking) :
    Takes p id n (awaitConfirm (managerListener env k) p x hr n).2 := by
  unfold awaitConfirm
  extract_lets self useIdentity m o
  have hm : Takes p id n m := by
    refine .set (fun hg => ⟨hg.secure, fun _ => rfl, hg.sent⟩) (fun h => .inl ?_) rfl rfl
    exact h.resolve_right (by rw [hs]; decide)
  exact hm.trans (sendAuthConfirm_guards (closing_guards hsec k) p m).takes

lemma handleHello_takes (x : Hello S) (consumed : ℕ) (src : Source)
    (hp : n.heap.get? p = some (n.conn p)) :
    Takes p (Past.eat src consumed) n (handleHello (managerListener env k) p x consumed src n).2 := by
  intro hn
  have hc : (n.conn p).secure = true := (hn.conn p _ hp).secure
  unfold handleHello
  extract_lets self c m
  split_ifs with h₁ h₂ h₃ h₄ h₅
  · exact Takes.set Guarded.consume consume_sealable (by cases src <;> rfl) (consume_past _ _ _) hn
  · exact Takes.fail hsec _ _ _ hn
  · exact Takes.fail hsec _ _ _ hn
  · exact absurd h₄ (by rw [show c.secure = true from hc]; decide)
  all_goals
    have hst : (n.conn p).state = .handshaking := not_not.mp h₁
    have hm : Takes p (Past.eat src consumed) n m := by
      refine .set (fun hg => Guarded.consume ⟨hg.secure, hg.keyed, hg.sent⟩) (fun hs => consume_sealable hs)
        (by cases src <;> rfl) (consume_past _ _ _)
  · exact hm.trans (Takes.fail (g := id) hsec _ _ _) hn
  · split
    · exact hm.trans (Takes.fail (g := id) hsec _ _ _) hn
    · refine hm.trans (awaitConfirm_takes hsec x _ ?_) hn
      have hcon : m.conn p = _ := Node.conn_setConn_self _ (by rw [hp, Option.isSome_some])
      rw [hcon]
      cases src <;> exact hst

lemma handleAuthConfirm_takes (tag : S.Block 32) (sig : Option (S.Block 64)) (consumed : ℕ)
    (src : Source) (hp : n.heap.get? p = some (n.conn p)) :
    Takes p (Past.eat src consumed) n
      (handleAuthConfirm (managerListener env k) p tag sig consumed src n).2 := by
  unfold handleAuthConfirm
  extract_lets c m
  have hm : Takes p (Past.eat src consumed) n m :=
    .set Guarded.consume consume_sealable (by cases src <;> rfl) (consume_past _ _ _)
  generalize (if c.useIdentity then identityFailure (managerListener env k).env.self c sig
    else none) = verdict
  split_ifs with h₁ h₂
  · exact Takes.fail hsec _ _ _
  · exact hm.trans (Takes.fail (g := id) hsec _ _ _)
  · cases verdict with
    | some what => exact hm.trans (Takes.fail (g := id) hsec _ _ _)
    | none =>
      have hst : (n.conn p).state = .awaitingConfirm := by
        simp only [Bool.or_eq_true, decide_eq_true_eq, not_or, not_not] at h₁
        exact h₁.2
      have hs : (n.heap.get? p).isSome := by rw [hp, Option.isSome_some]
      have hcon : m.conn p = consume src consumed (n.conn p) := Node.conn_setConn_self _ hs
      refine hm.trans (establish_takes hsec _ ?_ ?_)
      · rw [hcon]
        exact Node.get?_setConn_self _ hs
      · rw [hcon]
        cases src <;> exact hst

lemma dispatch_takes (f : Frame S) (consumed : ℕ) (src : Source)
    (hp : n.heap.get? p = some (n.conn p)) :
    Takes p (Past.eat src consumed ∘ Past.stamp src f) n
      (dispatch (managerListener env k) p f consumed src n).2 := by
  let c : PeerConnection S := stamped env n p f src
  let m : Node S := n.bump.setConn p c
  have hs : (n.bump.heap.get? p).isSome := by rw [Node.bump, hp, Option.isSome_some]
  have hm : Takes p (Past.stamp src f) n m := by
    have hb : Guards n n.bump := .of_fields rfl rfl
    have hset : Takes p (Past.stamp src f) n.bump m :=
      .set (fun hg => ⟨hg.secure, hg.keyed, hg.sent⟩) id rfl rfl
    exact hb.takes.trans hset
  have hpm : m.heap.get? p = some (m.conn p) := by
    rw [Node.conn_setConn_self _ hs]
    exact Node.get?_setConn_self _ hs
  have eat (o : Node S) : Takes p (Past.eat src consumed) o (o.setConn p (consume src consumed (o.conn p))) :=
    .set Guarded.consume consume_sealable (by cases src <;> rfl) (consume_past _ _ _)
  refine hm.trans ?_
  cases f with
  | hello ack x => exact handleHello_takes hsec x consumed src hpm
  | authConfirm tag sig => exact handleAuthConfirm_takes hsec tag sig consumed src hpm
  | heartbeat => exact eat m
  | goodbye => exact (eat m).trans (Takes.fail (g := id) hsec _ _ _)
  | data d =>
    have h := onPeerData_guards (k := k) hsec p d m
    simp only [dispatch]
    split_ifs with h₁ h₂
    · exact Takes.fail hsec _ _ _
    · exact h.takes.trans (eat _)
    · exact .of_dead h (Bool.not_eq_false _ ▸ fun hd => h₂ (congrArg (!·) hd))
  | membership r =>
    simp only [dispatch]
    split_ifs
    · exact Takes.fail hsec _ _ _
    · exact (eat m).trans (onPeerMembership_guards hsec p r _).takes
  | identity r =>
    simp only [dispatch]
    split_ifs
    · exact Takes.fail hsec _ _ _
    · exact (eat m).trans (onPeerIdentity_guards hsec p r _).takes

end Takes

def Traced (M : ℕ) (x : Past S) : Prop := Decodes M x.2.1.flatten (fromRecords x.2.2) x.1

def AllTraced (M : ℕ) (n : Node S) : Prop :=
  ∀ p c, n.heap.get? p = some c → c.dead = true ∨ Traced M c.past

section Traced

variable {M : ℕ} {x : Past S}

lemma Traced.plain (h : Traced M x) (f : Frame S) (consumed : ℕ) :
    Traced M (Past.eat .inBuf consumed (Past.stamp .inBuf f x)) := by
  rw [Traced, Past.eat, Past.stamp, fromRecords_plain]
  exact h

lemma Traced.record (h : Traced M x) {f : Frame S} {consumed : ℕ}
    (hf : tryDecodeFrame x.1 M = .ok f consumed) :
    Traced M (Past.eat .plainBuf consumed (Past.stamp .plainBuf f x)) := by
  rw [Traced, Past.eat, Past.stamp, fromRecords_record]
  exact Decodes.snoc h hf

lemma Traced.opened (h : Traced M x) (pt : Bytes) : Traced M (x.1 ++ pt, x.2.1 ++ [pt], x.2.2) := by
  rw [Traced, List.flatten_append, List.flatten_singleton]
  exact Decodes.append h pt

variable {n m : Node S} {p : Ptr}

lemma AllTraced.came {c d : Option (PeerConnection S)} (h : Came c d)
    (hc : ∀ x, c = some x → x.dead = true ∨ Traced M x.past) :
    ∀ y, d = some y → y.dead = true ∨ Traced M y.past := by
  intro y hy
  cases h with
  | absent => cases hy
  | fresh d hd =>
    cases hy
    rw [hd]
    exact .inr (.nil [])
  | kept h =>
    cases hy
    rw [h.past]
    exact (hc _ rfl).imp_left h.dead

lemma AllTraced.guards (h : AllTraced M n) (hn : Secured n) (g : Guards n m) : AllTraced M m :=
  fun p => AllTraced.came ((g hn).2 p) (h p)

lemma AllTraced.takes (h : AllTraced M n) (hn : Secured n) {g : Past S → Past S} (t : Takes p g n m)
    (hp : n.heap.get? p = some (n.conn p)) (hg : Traced M (n.conn p).past → Traced M (g (n.conn p).past)) :
    AllTraced M m := by
  obtain ⟨-, hq, hc⟩ := t hn
  intro q d hd
  by_cases hqp : q = p
  · subst hqp
    obtain ⟨e, he, hdead, hpast⟩ := hc _ hp
    cases he.symm.trans hd
    rcases h q _ hp with h | h
    · exact .inl (hdead h)
    · refine hpast.imp_right fun k => ?_
      rw [k]
      exact hg h
  · exact AllTraced.came (hq q hqp) (h q) d hd

end Traced

end Multimaster
