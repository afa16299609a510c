import Multimaster.Connection.PulseLoops

/-! Whole runs of a connection as sequences of pulses, and the rule for invariants that follows from it. -/

namespace Multimaster

variable {S : Suite}
variable {O : Owner S} {A : Frame S → Prop}

section Start

def Owner.hello (O : Owner S) (c : PeerConnection S) : Hello S := O.env.self.hello { c with secure := true }

structure Greeting (O : Owner S) (inbound : Bool) (w : Endpoint S) : Prop where
  conn : ∃ n, w.conn.standing = { freshConnection O inbound with
    state := .handshaking, ephKeys := genEphemeral (O.env.oracle.secret n) }.standing
  sent : w.conn.sent = [.plain (.hello inbound (O.hello w.conn))]
  told : w.told = []

structure Stillborn (O : Owner S) (inbound : Bool) (w : Endpoint S) : Prop where
  conn : w.conn.standing = (freshConnection O inbound).killed.standing
  sent : w.conn.sent = []
  told : w.told = []

lemma sendHello_pulses {inbound : Bool} {w : Endpoint S} (hsec : O.env.self.secure = true)
    (hc : w.conn.standing = { freshConnection O inbound with state := .handshaking }.standing)
    (hs : w.conn.sent = []) (ht : w.told = []) :
    ∃ v, Greeting O inbound v ∧ Pulses O A v (sendHello (ownerSink O) 0 w) := by
  have hcs : w.conn.secure = true := (standing_field hc PeerConnection.secure fun _ => rfl).trans hsec
  have hci : w.conn.inbound = inbound := standing_field hc PeerConnection.inbound fun _ => rfl
  unfold sendHello transmit
  extract_lets own c ephKeys w₁ h now w₂
  have hkeys : ephKeys = genEphemeral (O.env.oracle.secret w.pos) := if_pos hcs
  refine ⟨w₂, ⟨⟨w.pos, ?_⟩, ?_, ht⟩, flushOutbound_pulses w₂⟩
  · rw [← hkeys]
    exact congrArg (fun c : PeerConnection S => { c with ephKeys }) hc
  · have hh : h = O.hello w₂.conn := by
      change ({ h with secure := c.secure, ephPubKey := if c.secure then ephKeys.pk else S.zero 32 } : Hello S) = _
      rw [show c.secure = true from hcs]
      rfl
    change w.conn.sent ++ [.plain (.hello w.conn.inbound h)] = _
    rw [hs, hci, hh]
    rfl

lemma startConnect_cases (w : Endpoint S) :
    (∃ e what, startConnect (ownerSink O) 0 w =
      (false, fail (ownerSink O) 0 .socket e what { w with pos := w.pos + 1 })) ∨
    startConnect (ownerSink O) 0 w = (true, { w with
      conn := { w.conn with registered := true, wantWrite := true, interestOut := true }
      pos := w.pos + 1 }) := by
  unfold startConnect
  extract_lets answer w₁
  cases answer with
  | noSocket e => exact .inl ⟨_, _, rfl⟩
  | refused e => exact .inl ⟨_, _, rfl⟩
  | epollFailed e => exact .inl ⟨_, _, rfl⟩
  | inProgress => exact .inr rfl

lemma start_pulses (inbound : Bool) (hsec : O.env.self.secure = true) :
    (∃ v, Greeting O inbound v ∧ Pulses O A v (Endpoint.start O inbound)) ∨
      Stillborn O inbound (Endpoint.start O inbound) := by
  have stillborn (cat : ErrorCategory) (err : ℤ) (what : String) {w : Endpoint S}
      (hc : w.conn.standing = (freshConnection O inbound).standing) (hs : w.conn.sent = [])
      (ht : w.told = []) : Stillborn O inbound (fail (ownerSink O) 0 cat err what w) := by
    have hd : w.conn.dead = false := standing_field hc PeerConnection.dead fun _ => rfl
    obtain ⟨h₁, h₂, h₃⟩ := fail_alive (O := O) (w := w) cat err what hd
    have hk : w.conn.killed.standing = (freshConnection O inbound).killed.standing :=
      congrArg (fun c : PeerConnection S => { c with dead := true, state := .dead }) hc
    exact ⟨h₁.trans hk, h₂.trans hs, h₃.trans ht⟩
  cases inbound with
  | true =>
    left
    change ∃ v, _ ∧ Pulses O A v (startInbound (ownerSink O) 0 _)
    unfold startInbound
    extract_lets ok w₁ w₂
    have hw₂ : w₂.conn.standing = (freshConnection O true).standing ∧ w₂.conn.sent = [] ∧ w₂.told = [] := by
      unfold w₂
      split <;> exact ⟨rfl, rfl, rfl⟩
    exact sendHello_pulses hsec hw₂.1 hw₂.2.1 hw₂.2.2
  | false =>
    have hstart : Endpoint.start O false =
        if (startConnect (ownerSink O) 0 { conn := freshConnection O false, pos := 1 }).1 then
          onConnectComplete (ownerSink O) 0
            (startConnect (ownerSink O) 0 { conn := freshConnection O false, pos := 1 }).2
        else (startConnect (ownerSink O) 0 { conn := freshConnection O false, pos := 1 }).2 := rfl
    rcases startConnect_cases (O := O) { conn := freshConnection O false, pos := 1 } with ⟨e, what, hr⟩ | hr
    · rw [hstart, hr]
      dsimp only
      rw [if_neg Bool.false_ne_true]
      exact .inr (stillborn _ _ _ rfl rfl rfl)
    · rw [hstart, hr]
      dsimp only
      rw [if_pos rfl]
      unfold onConnectComplete
      extract_lets err w₂ w₃ ok w₄ w₅
      split_ifs
      · exact .inr (stillborn _ _ _ rfl rfl rfl)
      · have hw₅ : w₅.conn.standing = { freshConnection O false with state := .handshaking }.standing ∧
            w₅.conn.sent = [] ∧ w₅.told = [] := by
          unfold w₅
          split <;> exact ⟨rfl, rfl, rfl⟩
        exact .inl (sendHello_pulses hsec hw₅.1 hw₅.2.1 hw₅.2.2)

lemma Pulses.preserves {I : Endpoint S → Prop} (hI : ∀ {w v}, Pulse O A w v → I w → I v) {w v : Endpoint S}
    (h : Pulses O A w v) (hw : I w) : I v := by
  induction h with
  | refl => exact hw
  | tail _ h ih => exact hI h ih

structure Going (w : Endpoint S) : Prop where
  connected : w.conn.state ≠ .connectingOut
  secure : w.conn.secure = true

lemma Pulses.going {w v : Endpoint S} (h : Pulses O A w v) (hw : Going w) : Going v :=
  ⟨h.connected hw.connected, h.secure.trans hw.secure⟩

lemma Greeting.going {inbound : Bool} {w : Endpoint S} (hsec : O.env.self.secure = true)
    (h : Greeting O inbound w) : Going w := by
  obtain ⟨n, hc⟩ := h.conn
  refine ⟨?_, (standing_field hc PeerConnection.secure fun _ => rfl).trans hsec⟩
  rw [standing_field hc PeerConnection.state fun _ => rfl]
  exact ConnState.noConfusion

lemma Stillborn.going {inbound : Bool} {w : Endpoint S} (hsec : O.env.self.secure = true)
    (h : Stillborn O inbound w) : Going w := by
  refine ⟨?_, (standing_field h.conn PeerConnection.secure fun _ => rfl).trans hsec⟩
  rw [standing_field h.conn PeerConnection.state fun _ => rfl]
  exact ConnState.noConfusion

lemma run_invariant {I : Endpoint S → Prop} {inbound : Bool} (hsec : O.env.self.secure = true)
    (hA : Sends O A) (greeting : ∀ {w}, Greeting O inbound w → I w)
    (stillborn : ∀ {w}, Stillborn O inbound w → I w) (step : ∀ {w v}, Pulse O A w v → I w → I v)
    {es : List (Stimulus S)} (he : ∀ f, .act (.send f) ∈ es → A f) : I (Endpoint.run O inbound es) := by
  have start : I (Endpoint.start O inbound) ∧ Going (Endpoint.start O inbound) := by
    rcases start_pulses (A := A) inbound hsec with ⟨v, hv, hp⟩ | hs
    · exact ⟨hp.preserves step (greeting hv), hp.going (hv.going hsec)⟩
    · exact ⟨stillborn hs, hs.going hsec⟩
  unfold Endpoint.run
  generalize Endpoint.start O inbound = w at start
  induction es generalizing w with
  | nil => exact start.1
  | cons e es ih =>
    have hp := react_pulses hA start.2.connected start.2.secure (e := e)
      fun f hf => he f (hf ▸ List.mem_cons_self)
    exact ih (fun f hf => he f (List.mem_cons_of_mem e hf)) _
      ⟨hp.preserves step start.1, hp.going start.2⟩

end Start

end Multimaster
