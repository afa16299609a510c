import Multimaster.Manager.Hushed

/-! A node with a group key keeps application frames out of the clear, in both directions, as long
as no peer calls itself by the all-zero id. -/

namespace Multimaster

variable {S : Suite} {env : Env S} {k : ℕ}

def Listener.hand {W : Type} (L : Listener S W) (p : Ptr) : Frame S → Option (W → W)
  | .data d => some (L.onPeerData p d)
  | .membership m => some (L.onPeerMembership p m)
  | .identity r => some (L.onPeerIdentity p r)
  | .hello .. | .authConfirm .. | .heartbeat | .goodbye => none

/-- The next frame of the contents of the records opened on `p`. -/
def NextOfRecords (env : Env S) (n : Node S) (p : Ptr) (f : Frame S) : Prop :=
  ∃ r, Decodes env.cfg.maxMessageBytes (n.conn p).opened.flatten
    (fromRecords (n.conn p).dispatched ++ [f]) r

/-- `step` with other callbacks. -/
def stepWith (L : Listener S (Node S)) (n : Node S) (e : Event) : Node S :=
  if e.target.any (fun p => (n.conn p).dead) then n else perform L n e

section Congr

variable {L : Listener S (Node S)} (hL : L.toSink = managerSink env k)
  (hH : L.onPeerHandshake = onPeerHandshake (managerSink env k)) {p : Ptr} {n : Node S}

include hL hH

lemma dispatch_congr {f : Frame S} (consumed : ℕ) (src : Source)
    (hf : (n.conn p).state = .established → L.hand p f = (managerListener env k).hand p f) :
    dispatch L p f consumed src n = dispatch (managerListener env k) p f consumed src n := by
  obtain ⟨K, onHandshake, onData, onMembership, onIdentity⟩ := L
  dsimp only at hL hH
  subst hL hH
  have hst : ((n.bump.setConn p (stamped env n p f src)).conn p).state = (n.conn p).state := by
    rw [Node.conn_setConn]
    split_ifs <;> rfl
  have same {a b : Bool × Node S} (x : Bool × Node S) (h : (n.conn p).state = .established → a = b) :
      (if ((n.bump.setConn p (stamped env n p f src)).conn p).state ≠ .established then x else a) =
        if ((n.bump.setConn p (stamped env n p f src)).conn p).state ≠ .established then x else b := by
    rw [hst]
    split_ifs with hs
    · rfl
    · exact h (not_not.mp hs)
  cases f with
  | hello | authConfirm | heartbeat | goodbye => rfl
  | data d =>
    refine same _ fun hs => ?_
    have hd : onData p d = onPeerData (managerSink env k) p d := Option.some.inj (hf hs)
    simp only [hd]
    rfl
  | membership m =>
    refine same _ fun hs => ?_
    have hm : onMembership p m = onPeerMembership (managerSink env k) p m := Option.some.inj (hf hs)
    dsimp only
    rw [hm]
    rfl
  | identity r =>
    refine same _ fun hs => ?_
    have hr : onIdentity p r = onPeerIdentity (managerSink env k) p r := Option.some.inj (hf hs)
    dsimp only
    rw [hr]
    rfl

lemma plaintextTurn_congr (hp : (n.conn p).state ≠ .established) :
    plaintextTurn L p n = plaintextTurn (managerListener env k) p n := by
  have hdisp (f : Frame S) (consumed : ℕ) :=
    dispatch_congr hL hH (f := f) consumed .inBuf fun he => absurd he hp
  simp only [plaintextTurn, hdisp, hL]
  rfl

lemma secureTurn_congr (hp : ∀ f consumed,
      tryDecodeFrame (n.conn p).plainBuf env.cfg.maxMessageBytes = .ok f consumed →
        L.hand p f = (managerListener env k).hand p f) :
    secureTurn L p n = secureTurn (managerListener env k) p n := by
  have hdisp {f : Frame S} {consumed : ℕ}
      (hd : tryDecodeFrame (n.conn p).plainBuf env.cfg.maxMessageBytes = .ok f consumed) :=
    dispatch_congr hL hH (n := n) consumed .plainBuf fun _ => hp f consumed hd
  have hM : tryDecodeFrame (S := S) (L.conn n p).plainBuf L.env.cfg.maxMessageBytes =
      tryDecodeFrame (n.conn p).plainBuf env.cfg.maxMessageBytes := by
    rw [hL]
    rfl
  have hM' : tryDecodeFrame (S := S) ((managerListener env k).conn n p).plainBuf
      (managerListener env k).env.cfg.maxMessageBytes =
        tryDecodeFrame (n.conn p).plainBuf env.cfg.maxMessageBytes := rfl
  unfold secureTurn
  rw [hM, hM', hL]
  cases hd : tryDecodeFrame (S := S) (n.conn p).plainBuf env.cfg.maxMessageBytes with
  | needMore => rfl
  | error => rfl
  | ok f consumed =>
    dsimp only
    rw [hdisp hd]

end Congr

lemma Hushed.stepWith {n : Node S} (h : Hushed env n) {L : Listener S (Node S)}
    (hL : L.toSink = managerSink env (depth n))
    (hH : L.onPeerHandshake = onPeerHandshake (managerSink env (depth n)))
    (hf : ∀ p f, NextOfRecords env n p f → L.hand p f = (managerListener env (depth n)).hand p f)
    (e : Event) : Multimaster.stepWith L n e = step env n e := by
  unfold Multimaster.stepWith step
  split_ifs with hd
  · rfl
  have alive {p : Ptr} (ht : e.target = some p) : n.heap.get? p = some (n.conn p) := by
    rw [ht] at hd
    exact Node.get?_of_alive (by simpa using hd)
  cases e with
  | plaintextTurn p =>
    simp only [perform]
    split_ifs with hs
    · rfl
    · rw [plaintextTurn_congr hL hH]
      -- before the handshake is over the callbacks are not reached
      intro he
      have hc := (h.conn p _ (alive rfl)).secure
      exact hs (.inr (by simp [sealedMode, hc, he]))
  | secureTurn p =>
    simp only [perform]
    split_ifs with hs
    · rw [secureTurn_congr hL hH]
      intro f consumed hd'
      have ht := (h.traced p _ (alive rfl)).resolve_left (by simpa [Event.target] using hd)
      exact hf p f ⟨_, Decodes.snoc ht hd'⟩
    · rfl
  | recordTurn p =>
    obtain ⟨K, _, _, _, _⟩ := L
    subst hL
    rfl
  | receive p l =>
    obtain ⟨K, _, _, _, _⟩ := L
    subst hL
    rfl
  | _ =>
    simp only [perform, hL]
    rfl

def Cleartext (n : Node S) : Prop :=
  ∀ p c, n.heap.get? p = some c → ∀ f, .plain f ∈ c.sent → f.inClear = true

theorem no_cleartext_traffic (env : Env S) (hsec : env.self.secure = true) (es : List Event)
    (h : Along env (NoZeroHello env) (started env) es) :
    Cleartext (run env es) ∧
    Cleartext (closedDown (managerSink env (depth (run env es))) (run env es)) ∧
    ∀ (e : Event) (L : Listener S (Node S)), L.toSink = managerSink env (depth (run env es)) →
      L.onPeerHandshake = onPeerHandshake (managerSink env (depth (run env es))) →
      (∀ p f, NextOfRecords env (run env es) p f →
        L.hand p f = (managerListener env (depth (run env es))).hand p f) →
      stepWith L (run env es) e = step env (run env es) e := by
  have hn := hushed_run hsec h
  have hdown := (closedDown_guards (k := depth (run env es)) hsec (run env es) hn.secured).1
  exact ⟨fun p c hc => (hn.conn p c hc).sent, fun p c hc => (hdown.conn p c hc).sent,
    fun e L hL hH hf => hn.stepWith hL hH hf e⟩

def Env.keyed : Env Suite.transparent :=
  { Env.plain (Octets.fill [1]) with self := { LocalIdentity.plain (Octets.fill [1]) with secure := true } }

def keyedGreeting (id : PeerId) : List Event :=
  [.accept default,
    .receive 1 (encode (.hello false
      { Hello.plain id with secure := true, ephPubKey := Octets.fill [7] })),
    .plaintextTurn 1,
    .receive 1 (encode (S := Suite.transparent) (.authConfirm identifiedTag none)),
    .plaintextTurn 1]

theorem no_cleartext_traffic_greeted :
    Along Env.keyed (NoZeroHello Env.keyed) (started Env.keyed)
      (keyedGreeting (Octets.fill [2]) ++ [.broadcast [5]]) ∧
    ((run Env.keyed (keyedGreeting (Octets.fill [2]) ++ [.broadcast [5]])).conn 1).sent.length = 4 ∧
    Cleartext (run Env.keyed (keyedGreeting (Octets.fill [2]) ++ [.broadcast [5]])) :=
  have h : Along Env.keyed (NoZeroHello Env.keyed) (started Env.keyed)
      (keyedGreeting (Octets.fill [2]) ++ [.broadcast [5]]) := by decide +kernel
  ⟨h, by decide +kernel, (no_cleartext_traffic Env.keyed rfl _ h).1⟩

theorem zero_id_leaks : ¬ Cleartext (run Env.keyed
    (keyedGreeting (Octets.zero 16) ++ [.hangup 1, .timer 3, .accept default, .broadcast [5]])) := by
  intro h
  have hleak : ((run Env.keyed (keyedGreeting (Octets.zero 16) ++
      [.hangup 1, .timer 3, .accept default, .broadcast [5]])).conn 1).sent.any
        (fun x => match x with | .plain f => !f.inClear | .record .. => false) = true := by decide +kernel
  obtain ⟨x, hx, hf⟩ := List.any_eq_true.mp hleak
  cases x with
  | plain f =>
    have := h 1 _ (Node.get?_of_alive (by decide +kernel)) f hx
    simp [this] at hf
  | record => cases hf

end Multimaster
