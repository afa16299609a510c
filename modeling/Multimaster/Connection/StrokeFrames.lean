import Multimaster.Connection.Strokes

/-! The handling of input as a sequence of strokes. -/

namespace Multimaster

variable {S : Suite} {P : Play S} {A : Frame S → Prop} {inner : Scene S → Scene S}

section Input

variable (hin : ∀ w, Plays P A w (inner w)) {p : Ptr} {w : Scene S}

variable (P A) in
structure Returns (p : Ptr) (w : Scene S) (r : Bool × Scene S) : Prop where
  runs : Runs P A p .rest .rest w r.2
  alive : r.1 = true → (r.2.conns p).dead = false

lemma consume_gear (src : Source) (n : ℕ) (c : PeerConnection S) : (consume src n c).gear = c.gear := by
  cases src <;> rfl

lemma conns_set (w : Scene S) (p : Ptr) (d : PeerConnection S) : (w.set p d).conns p = d := Function.update_self ..

lemma Returns.eaten (hd : (w.conns p).dead = false) (src : Source) (n : ℕ) :
    Returns P A p w (true, w.set p (consume src n (w.conns p))) where
  runs := .tend (consume_gear ..)
  alive _ := by
    rw [conns_set, consume_dead]
    exact hd

lemma Returns.head {v : Scene S} {r : Bool × Scene S} (h : Runs P A p .rest .rest w v) (g : Returns P A p v r) :
    Returns P A p w r := ⟨h.trans g.runs, g.alive⟩

lemma Returns.checked {v : Scene S} (h : Runs P A p .rest .rest w v) : Returns P A p w (!(v.conns p).dead, v) :=
  ⟨h, fun ha => by simpa using ha⟩

include hin

lemma Returns.failed (cat : ErrorCategory) (err : ℤ) (what : String) (w : Scene S) :
    Returns P A p w (false, fail (stage P inner) p cat err what w) :=
  ⟨(fail_runs hin cat err what w).settled rfl, fun h => by cases h⟩

lemma establish_ends (x : Hello S) (hd : (w.conns p).dead = false)
    (hs : (w.conns p).state = .handshaking ∧ (w.conns p).secure = false ∨ (w.conns p).state = .awaitingConfirm) :
    Returns P A p w (establish (stageListener P inner) p x w) := by
  have h : Runs P A p .rest .rest w
      ((w.set p { w.conns p with state := .established }).call p (.handshake x)) :=
    .report (.establish (s := w.track p .rest) x rfl hd hs)
  exact .checked (h.trans ((hin _).runs rfl))

lemma awaitConfirm_ends (x : Hello S) (hr : HandshakeResult S) (hd : (w.conns p).dead = false)
    (hs : (w.conns p).state = .handshaking) (hsec : (w.conns p).secure = true) :
    Returns P A p w (awaitConfirm (stageListener P inner) p x hr w) := by
  unfold awaitConfirm
  extract_lets own useIdentity w₁ w₂
  have h₁ : Runs P A p .rest .confirm w w₁ :=
    .set (.greet (s := w.track p .rest) _ useIdentity rfl hd hs hsec rfl)
  exact .checked (h₁.trans (sendAuthConfirm_runs hin w₁))

lemma handleHello_ends (x : Hello S) (n : ℕ) (src : Source) (hd : (w.conns p).dead = false) :
    Returns P A p w (handleHello (stageListener P inner) p x n src w) := by
  unfold handleHello
  extract_lets own c w₁
  have h₁ : Runs P A p .rest .rest w w₁ := .tend (consume_gear ..)
  have hc₁ : w₁.conns p = consume src n
      { c with peerId := x.nodeId, peerListenPort := x.tcpListenPort, peerNonce := x.nonce } := conns_set ..
  have hgear : (w₁.conns p).gear = c.gear := by
    rw [hc₁]
    exact consume_gear ..
  have hd₁ : (w₁.conns p).dead = false := (congrArg Prod.fst hgear).trans hd
  have hs₁ : (w₁.conns p).state = c.state := congrArg (·.2.1) hgear
  have hsec₁ : (w₁.conns p).secure = c.secure := congrArg (·.2.2.1) hgear
  split_ifs with hst hver hmode hplain hid
  · exact .eaten hd src n
  · exact .failed hin _ _ _ w
  · exact .failed hin _ _ _ w
  · refine .head h₁ (establish_ends hin x hd₁ (.inl ⟨hs₁.trans (not_not.mp hst), hsec₁.trans ?_⟩))
    simpa using hplain
  · exact .head h₁ (.failed hin _ _ _ w₁)
  · split
    · exact .head h₁ (.failed hin _ _ _ w₁)
    · rename_i hr _
      refine .head h₁ (awaitConfirm_ends hin x hr hd₁ (hs₁.trans (not_not.mp hst)) (hsec₁.trans ?_))
      simpa using hplain

lemma handleAuthConfirm_ends (tag : S.Block 32) (sig : Option (S.Block 64)) (n : ℕ) (src : Source)
    (hd : (w.conns p).dead = false) :
    Returns P A p w (handleAuthConfirm (stageListener P inner) p tag sig n src w) := by
  unfold handleAuthConfirm
  extract_lets c w₁
  have h₁ : Runs P A p .rest .rest w w₁ := .tend (consume_gear ..)
  have hgear : (w₁.conns p).gear = c.gear := (congrArg _ (conns_set ..)).trans (consume_gear ..)
  generalize (if c.useIdentity then identityFailure (stageListener P inner).env.self c sig else none) = verdict
  split_ifs with hst htag
  · exact .failed hin _ _ _ w
  · exact .head h₁ (.failed hin _ _ _ w₁)
  · cases verdict with
    | some what => exact .head h₁ (.failed hin _ _ _ w₁)
    | none =>
      refine .head h₁ (establish_ends hin c.peerHello ((congrArg Prod.fst hgear).trans hd) (.inr ?_))
      simp only [Bool.or_eq_true, decide_eq_true_eq, not_or, not_not] at hst
      exact (congrArg (·.2.1) hgear).trans hst.2

lemma dispatch_ends (f : Frame S) (n : ℕ) (src : Source) (hd : (w.conns p).dead = false) :
    Returns P A p w (dispatch (stageListener P inner) p f n src w) := by
  let c := w.conns p
  let w₁ : Scene S := { w.set p { c with
    lastRecv := P.env.oracle.clock w.pos, dispatched := c.dispatched ++ [(src, f)] } with pos := w.pos + 1 }
  have h₁ : Runs P A p .rest .rest w w₁ := by
    have h : Runs P A p .rest .rest w (w.set p { c with
      lastRecv := P.env.oracle.clock w.pos, dispatched := c.dispatched ++ [(src, f)] }) := .tend rfl
    exact ⟨h.opened, h.own, h.others, h.asleep⟩
  have hc₁ : w₁.conns p = { c with
    lastRecv := P.env.oracle.clock w.pos, dispatched := c.dispatched ++ [(src, f)] } := conns_set ..
  have hgear : (w₁.conns p).gear = c.gear := by
    rw [hc₁]
    rfl
  have hd₁ : (w₁.conns p).dead = false := (congrArg Prod.fst hgear).trans hd
  -- the frame is passed on, on a connection that is Established
  have call {v : Scene S} (hv : (v.conns p).gear = c.gear) (hst : ¬(w₁.conns p).state ≠ .established)
      (x : Callback S) (hx : x ≠ .closed ∧ ∀ h, x ≠ .handshake h) :
      Runs P A p .rest .rest v (inner (v.call p x)) := by
    have hst : (v.conns p).state = .established :=
      (congrArg (·.2.1) (hv.trans hgear.symm)).trans (not_not.mp hst)
    have hdv : (v.conns p).dead = false := (congrArg Prod.fst hv).trans hd
    exact (Runs.call (.message (s := v.track p .rest) x hx rfl hdv hst)).trans ((hin _).runs rfl)
  have eat : Runs P A p .rest .rest w₁ (w₁.set p (consume src n (w₁.conns p))) := .tend (consume_gear ..)
  have heat : ((w₁.set p (consume src n (w₁.conns p))).conns p).gear = c.gear :=
    (congrArg _ (conns_set ..)).trans ((consume_gear ..).trans hgear)
  refine .head h₁ ?_
  cases f with
  | hello ack x => exact handleHello_ends hin x n src hd₁
  | authConfirm tag sig => exact handleAuthConfirm_ends hin tag sig n src hd₁
  | heartbeat => exact .eaten hd₁ src n
  | goodbye => exact .head eat (.failed hin _ _ _ _)
  | data d =>
    have hcall (hst) := call hgear hst (.data d) (by simp)
    change Returns P A p w₁ (if (w₁.conns p).state ≠ .established then _ else
      if !((inner (w₁.call p (.data d))).conns p).dead then _ else _)
    split_ifs with hst ha
    · exact .failed hin _ _ _ w₁
    · exact .head (hcall hst) (.eaten (by simpa using ha) src n)
    · exact ⟨hcall hst, fun h => by cases h⟩
  | membership m =>
    have hcall (hst) := call heat hst (.membership m) (by simp)
    change Returns P A p w₁ (if (w₁.conns p).state ≠ .established then _ else _)
    split_ifs with hst
    · exact .failed hin _ _ _ w₁
    · exact .checked (eat.trans (hcall hst))
  | identity r =>
    have hcall (hst) := call heat hst (.identity r) (by simp)
    change Returns P A p w₁ (if (w₁.conns p).state ≠ .established then _ else _)
    split_ifs with hst
    · exact .failed hin _ _ _ w₁
    · exact .checked (eat.trans (hcall hst))

omit hin in
variable (P A) in
def TurnEnds (p : Ptr) (w : Scene S) (t : Turn (Scene S)) : Prop :=
  Runs P A p .rest .rest w t.world ∧ (∀ v, t = .again v → (v.conns p).dead = false) ∧
    ∀ v, t = .stop true v → (v.conns p).dead = false

omit hin in
lemma TurnEnds.stop {r : Bool × Scene S} (h : Returns P A p w r) : TurnEnds P A p w (.stop r.1 r.2) := by
  obtain ⟨b, u⟩ := r
  refine ⟨h.runs, by rintro _ ⟨⟩, fun v hv => ?_⟩
  cases hv
  exact h.alive rfl

omit hin in
lemma TurnEnds.again {v : Scene S} (h : Runs P A p .rest .rest w v) (hd : (v.conns p).dead = false) :
    TurnEnds P A p w (.again v) := by
  refine ⟨h, fun u hu => ?_, by rintro _ ⟨⟩⟩
  cases hu
  exact hd

omit hin in
lemma TurnEnds.stay (hd : (w.conns p).dead = false) : TurnEnds P A p w (.stop true w) :=
  .stop (r := (true, w)) ⟨.refl w, fun _ => hd⟩

lemma TurnEnds.failed (cat : ErrorCategory) (err : ℤ) (what : String) (w : Scene S) :
    TurnEnds P A p w (.stop false (fail (stage P inner) p cat err what w)) := .stop (.failed hin cat err what w)

lemma plaintextTurn_ends (w : Scene S) (hd : (w.conns p).dead = false) :
    TurnEnds P A p w (plaintextTurn (stageListener P inner) p w) := by
  unfold plaintextTurn
  split
  · exact .stay hd
  · exact .failed hin _ _ _ w
  · rename_i f n _
    extract_lets r
    have hr : Returns P A p w r := dispatch_ends hin f n .inBuf hd
    split_ifs with ha
    · exact .stop (r := (false, r.2)) ⟨hr.runs, by simp⟩
    · exact .stop (r := (true, r.2)) ⟨hr.runs, fun _ => hr.alive (by simpa using ha)⟩
    · exact .again hr.runs (hr.alive (by simpa using ha))

lemma secureTurn_ends (w : Scene S) (hd : (w.conns p).dead = false) :
    TurnEnds P A p w (secureTurn (stageListener P inner) p w) := by
  unfold secureTurn
  split
  · exact .stay hd
  · exact .failed hin _ _ _ w
  · rename_i f n _
    extract_lets r
    have hr : Returns P A p w r := dispatch_ends hin f n .plainBuf hd
    split_ifs with ha
    · exact .stop (r := (false, r.2)) ⟨hr.runs, by simp⟩
    · exact .again hr.runs (hr.alive (by simpa using ha))

lemma recordTurn_ends (w : Scene S) (hd : (w.conns p).dead = false) :
    TurnEnds P A p w (recordTurn (stageListener P inner) p w) := by
  unfold recordTurn
  extract_lets c clen
  split_ifs
  · exact .stay hd
  · exact .failed hin _ _ _ w
  · exact .stay hd
  · split
    · exact .failed hin _ _ _ w
    · exact .again (.tend rfl) ((congrArg PeerConnection.dead (conns_set ..)).trans hd)

lemma parseInbound_runs (hd : (w.conns p).dead = false) :
    Runs P A p .rest .rest w (parseInbound (stageListener P inner) p w) := by
  have refl (w : Scene S) : Runs P A p .rest .rest w w := .refl w
  unfold parseInbound
  extract_lets r q
  have hr : Runs P A p .rest .rest w r.2 ∧ (r.1 = true → (r.2.conns p).dead = false) := by
    unfold r
    split
    · exact turns_spec refl Runs.trans (plaintextTurn_ends hin) _ hd
    · exact ⟨.refl w, fun _ => hd⟩
  have hq (ha : r.1 = true) : Runs P A p .rest .rest r.2 q.2 ∧ (q.1 = true → (q.2.conns p).dead = false) :=
    turns_spec refl Runs.trans (recordTurn_ends hin) _ (hr.2 ha)
  split_ifs with ha hs hb
  · exact hr.1
  · exact hr.1.trans (hq (by simpa using ha)).1
  · have hq := hq (by simpa using ha)
    have ht := turns_spec refl Runs.trans (secureTurn_ends hin) ((q.2.conns p).plainBuf.length + 1)
      (hq.2 (by simpa using hb))
    exact hr.1.trans (hq.1.trans ht.1)
  · exact hr.1

lemma onIoEvents_runs (hup out inn : Bool) (w : Scene S) :
    Runs P A p .rest .rest w (onIoEvents (stageListener P inner) p hup out inn w) := by
  unfold onIoEvents
  extract_lets w₁ w₂
  split_ifs with hd hh hd₁ hd₂ hin'
  · exact .refl w
  · exact (Returns.failed hin _ _ _ w).runs
  all_goals
    have h₁ : Runs P A p .rest .rest w w₁ := by
      unfold w₁
      split
      · rename_i hc
        exact onConnectComplete_runs hin (Bool.eq_false_of_not_eq_true hd)
          (beq_iff_eq.mp ((Bool.and_eq_true _ _).mp hc).1)
      · exact .refl w
  · exact h₁
  all_goals
    have h₂ : Runs P A p .rest .rest w₁ w₂ := by
      unfold w₂
      split
      · exact (flushOutbound_runs hin w₁).settled rfl
      · exact .refl w₁
  · exact h₁.trans h₂
  · refine (h₁.trans h₂).trans ?_
    unfold doRead
    extract_lets r w₃
    have h₃ : Runs P A p .rest .rest w₂ w₃ := .bump (.tend rfl)
    split
    · exact h₃.trans (Returns.failed hin _ _ _ w₃).runs
    · refine h₃.trans (parseInbound_runs hin ?_)
      exact (congrArg PeerConnection.dead (conns_set ..)).trans (Bool.eq_false_of_not_eq_true hd₂)
  · exact h₁.trans h₂

end Input

end Multimaster
